import NumaHeap.Proofs.Platform.Guise
import NumaHeap.Proofs.Platform.Simulated

/-!
Platforms abreast. Twins cannot be told apart but by whether they place memory; side by side they are
one platform, which looks like either of them in its own guise. So does a platform that refuses huge
pages, whether they are wished for or not.
-/

namespace NumaHeap

variable {σ τ : Type} {g : Guise σ τ} {os : Platform σ} {other : Platform τ}

/-- No huge page is ever mapped, and an attempt changes nothing. -/
def Platform.RefusesHuge (os : Platform σ) : Prop :=
  ∀ (s : σ) (length : Nat), ∃ cause, os.map s length .huge = (.error cause, s)

/-- No memory is ever placed. -/
def Platform.NeverBinds (os : Platform σ) : Prop :=
  ∀ (s : σ) (start length node : Nat), ∃ cause, (os.bind s start length node).1 = .error cause

/-- Memory is placed wherever it is asked for. -/
def Platform.AlwaysBinds (os : Platform σ) : Prop :=
  ∀ (s : σ) (start length node : Nat), (os.bind s start length node).1 = .ok ()

namespace Guise

/-- Everything is what it seems. -/
def plain (σ : Type) : Guise σ σ := { system := id }

/-- No huge pages are wished for, and so none are missed. -/
def small (σ : Type) : Guise σ σ :=
  { system := id, hugePages := fun _ => false, fallbacks := fun _ => 0 }

/-- Some more fallbacks are counted. -/
def missed (σ : Type) (count : Nat) : Guise σ σ := { system := id, fallbacks := (· + count) }

/-- No fallback is remembered. -/
def forgetful (σ : Type) : Guise σ σ := { system := id, fallbacks := fun _ => 0 }

/-- Regions are mapped alike if pages are, and if placing a region makes no difference. -/
theorem map_under (page : other.pageSize = os.pageSize)
    (rounded : ∀ (s : Supply σ) (length node : Nat), (s.under g).mapRounded other length node =
      (s.mapRounded os length node).map id (·.under g))
    (placed : ∀ (s : Supply σ) (region : Region),
      (s.under g).bindRegion other region = (s.bindRegion os region).under g)
    (s : Supply σ) (length node : Nat) :
    (s.under g).map other length node = (s.map os length node).map id (·.under g) := by
  unfold Supply.map
  rw [page]
  cases os.pageSize.roundUp? length with
  | none => rfl
  | some length =>
    dsimp only
    rw [rounded]
    cases s.mapRounded os length node with
    | mk answer s =>
      cases answer with
      | error cause => rfl
      | ok region =>
        let mapper := { s.mapper with mappedBytes := s.mapper.mappedBytes + region.length }
        exact congrArg (Prod.mk (Except.ok region)) (placed { s with mapper } region)

section

variable (maps : ∀ (s : σ) (length : Nat) (pages : PageKind),
  other.map (g.system s) length pages = (os.map s length pages).map id g.system)

include maps

theorem mapPages_under (s : Supply σ) (length node : Nat) (pages : PageKind) :
    (s.under g).mapPages other length node pages =
      (s.mapPages os length node pages).map id (·.under g) := by
  have mapped : other.map (s.under g).machine.system length pages =
      (os.map s.machine.system length pages).map id g.system := maps ..
  unfold Supply.mapPages Machine.map
  rw [mapped]
  cases os.map s.machine.system length pages with
  | mk answer system => cases answer <;> rfl

theorem mapRounded_under (size : other.hugePageSize = os.hugePageSize)
    (available : ∀ s, other.hugePagesAvailable (g.system s) = os.hugePagesAvailable s)
    (wishes : g.hugePages = id) (counts : ∀ count, g.fallbacks (count + 1) = g.fallbacks count + 1)
    (s : Supply σ) (length node : Nat) :
    (s.under g).mapRounded other length node =
      (s.mapRounded os length node).map id (·.under g) := by
  have attempt : (s.under g).hugeLength? other length = s.hugeLength? os length := by
    have asked : other.hugePagesAvailable (s.under g).machine.system =
        os.hugePagesAvailable s.machine.system := available _
    have wish : (s.under g).mapper.hugePages = s.mapper.hugePages := congrFun wishes _
    unfold Supply.hugeLength?
    rw [asked, wish, size]
  have counted : ∀ s : Supply σ, (s.under g).countFallback = s.countFallback.under g := by
    intro s
    simp only [Supply.countFallback, Supply.under, Mapper.under, counts]
  unfold Supply.mapRounded
  rw [attempt]
  cases s.hugeLength? os length with
  | none => exact mapPages_under maps ..
  | some huge =>
    dsimp only
    rw [mapPages_under maps]
    cases s.mapPages os huge node .huge with
    | mk answer s =>
      cases answer with
      | ok region => rfl
      | error cause =>
        dsimp only [Prod.map, id]
        rw [counted]
        exact mapPages_under maps ..

end

theorem bindRegion_under (topology : other.topology = os.topology)
    (binds : ∀ (s : σ) (start length node : Nat),
      other.bind (g.system s) start length node = (os.bind s start length node).map id g.system)
    (counts : g.failures = id) (s : Supply σ) (region : Region) :
    (s.under g).bindRegion other region = (s.bindRegion os region).under g := by
  have bound : other.bind (s.under g).machine.system region.start region.length region.node =
      (os.bind s.machine.system region.start region.length region.node).map id g.system := binds ..
  unfold Supply.bindRegion Machine.bind
  rw [topology, bound]
  change (if s.mapper.numaAware && os.topology.available then _ else _) = _
  split
  · cases os.bind s.machine.system region.start region.length region.node with
    | mk answer system =>
      cases answer with
      | ok => rfl
      | error cause => simp only [Prod.map, id, Supply.under, Mapper.under, Machine.under, counts]
  · rfl

theorem plain_fits (os : Platform σ) : (plain σ).Fits os os where
  pageSize := rfl
  topology := rfl
  currentCpu? _ _ := rfl
  now _ := rfl
  map _ _ _ := rfl
  unmap _ _ _ := rfl
  fallbacks := rfl
  failures := rfl

theorem missed_serves (os : Platform σ) (count : Nat) : (missed σ count).Serves os os where
  pageSize := rfl
  topology := rfl
  currentCpu? _ _ := rfl
  now _ := rfl
  unmap _ _ _ := rfl
  map := map_under rfl
    (mapRounded_under (fun _ _ _ => rfl) rfl (fun _ => rfl) rfl fun more =>
      Nat.add_right_comm more 1 count)
    (bindRegion_under rfl (fun _ _ _ _ => rfl) rfl)

theorem forgetful_suits (os : Platform σ) : (forgetful σ).Suits os os where
  pageSize := rfl
  topology := rfl
  currentCpu? _ _ := rfl
  now _ := rfl
  unmap _ _ _ := rfl

/-- Huge pages that are always refused are as good as not wished for: the attempt leaves nothing behind
but the count of it. -/
theorem small_fits (refuses : os.RefusesHuge) : (small σ).Fits os os where
  pageSize := rfl
  topology := rfl
  currentCpu? _ _ := rfl
  now _ := rfl
  map := by
    refine map_under rfl (fun s length node => ?_) (bindRegion_under rfl (fun _ _ _ _ => rfl) rfl)
    have plainly : ∀ s : Supply σ, (s.under (small σ)).mapPages os length node .normal =
        (s.mapPages os length node .normal).map id (·.under (small σ)) :=
      fun s => mapPages_under (fun _ _ _ => rfl) s length node .normal
    change (s.under (small σ)).mapPages os length node .normal = _
    unfold Supply.mapRounded
    cases s.hugeLength? os length with
    | none => exact plainly s
    | some huge =>
      obtain ⟨cause, refused⟩ := refuses s.machine.system huge
      have back : s.mapPages os huge node .huge = (.error cause, s) := by
        unfold Supply.mapPages Machine.map
        rw [refused]
      dsimp only
      rw [back]
      exact plainly s.countFallback
  unmap _ _ _ := rfl
  fallbacks := rfl
  failures := rfl

end Guise

namespace Platform

variable {alike : σ → τ → Prop}

/-- States that are alike cannot be told apart, whatever is done to both, but by whether memory could be
placed. -/
structure Twins (os : Platform σ) (other : Platform τ) (alike : σ → τ → Prop) : Prop where
  pageSize : other.pageSize = os.pageSize
  hugePageSize : other.hugePageSize = os.hugePageSize
  topology : other.topology = os.topology
  hugePagesAvailable : ∀ {s t}, alike s t → other.hugePagesAvailable t = os.hugePagesAvailable s
  currentCpu? : ∀ {s t}, alike s t → ∀ thread, other.currentCpu? t thread = os.currentCpu? s thread
  now : ∀ {s t}, alike s t → other.now t = os.now s
  map : ∀ {s t}, alike s t → ∀ length pages,
    (other.map t length pages).1 = (os.map s length pages).1 ∧
      alike (os.map s length pages).2 (other.map t length pages).2
  unmap : ∀ {s t}, alike s t → ∀ start length,
    alike (os.unmap s start length) (other.unmap t start length)
  bind : ∀ {s t}, alike s t → ∀ start length node,
    alike (os.bind s start length node).2 (other.bind t start length node).2

namespace Twins

/-- Both platforms at once, in states that are alike. The first one answers; it places no thread. -/
def abreast (twins : os.Twins other alike) : Platform {p : σ × τ // alike p.1 p.2} where
  pageSize := os.pageSize
  hugePageSize := os.hugePageSize
  topology := os.topology
  hugePagesAvailable p := os.hugePagesAvailable p.1.1
  currentCpu? p := os.currentCpu? p.1.1
  now p := os.now p.1.1
  map p length pages :=
    ((os.map p.1.1 length pages).1,
      ⟨((os.map p.1.1 length pages).2, (other.map p.1.2 length pages).2),
        (twins.map p.2 length pages).2⟩)
  unmap p start length :=
    ⟨(os.unmap p.1.1 start length, other.unmap p.1.2 start length), twins.unmap p.2 start length⟩
  bind p start length node :=
    ((os.bind p.1.1 start length node).1,
      ⟨((os.bind p.1.1 start length node).2, (other.bind p.1.2 start length node).2),
        twins.bind p.2 start length node⟩)
  bindThread p _ _ := (.error .unavailable, p)

/-- The first one of the two. -/
def first (alike : σ → τ → Prop) : Guise {p : σ × τ // alike p.1 p.2} σ :=
  { system := fun p => p.1.1 }

/-- The second one of the two, where nothing fails to be placed. -/
def second (alike : σ → τ → Prop) : Guise {p : σ × τ // alike p.1 p.2} τ :=
  { system := fun p => p.1.2, failures := fun _ => 0 }

variable (twins : os.Twins other alike)

theorem first_fits : (first alike).Fits twins.abreast os where
  pageSize := rfl
  topology := rfl
  currentCpu? _ _ := rfl
  now _ := rfl
  map := by
    let both := twins.abreast
    have size : os.hugePageSize = both.hugePageSize := rfl
    have topology : os.topology = both.topology := rfl
    exact Guise.map_under rfl
      (Guise.mapRounded_under (fun _ _ _ => rfl) size (fun _ => rfl) rfl fun _ => rfl)
      (Guise.bindRegion_under topology (fun _ _ _ _ => rfl) rfl)
  unmap _ _ _ := rfl
  fallbacks := rfl
  failures := rfl

/-- A placement that fails is counted on one side, and one that succeeds is not on the other. -/
theorem second_fits (never : os.NeverBinds) (always : other.AlwaysBinds) :
    (second alike).Fits twins.abreast other where
  pageSize := twins.pageSize
  topology := twins.topology
  currentCpu? p thread := twins.currentCpu? p.2 thread
  now p := twins.now p.2
  map := by
    have maps : ∀ (p : {p : σ × τ // alike p.1 p.2}) (length : Nat) (pages : PageKind),
        other.map ((second alike).system p) length pages =
          (twins.abreast.map p length pages).map id (second alike).system :=
      fun p length pages => Prod.ext (twins.map p.2 length pages).1 rfl
    refine Guise.map_under twins.pageSize (Guise.mapRounded_under maps twins.hugePageSize
      (fun p => twins.hugePagesAvailable p.2) rfl fun _ => rfl) fun s region => ?_
    unfold Supply.bindRegion
    rw [twins.topology]
    change (if s.mapper.numaAware && os.topology.available then _ else _) =
      Supply.under (if s.mapper.numaAware && os.topology.available then _ else _) _
    split
    · obtain ⟨cause, failed⟩ := never s.machine.system.1.1 region.start region.length region.node
      have placed := always s.machine.system.1.2 region.start region.length region.node
      simp only [Machine.bind, abreast, failed, Supply.under, Machine.under, second, placed]
      rfl
    · rfl
  unmap _ _ _ := rfl
  fallbacks := rfl
  failures := rfl

end Twins

end Platform

namespace Simulated

/-- The platform without any huge pages to give, though it may well claim to have some. -/
def withoutHuge (settings : Settings) : Platform State :=
  { platform settings with
    map := fun s length pages => match pages with
      | .huge => (.error .hugePagesUnavailable, s)
      | .normal => map settings s length .normal }

/-- The platform with the same answer to every placement of memory; it counts those that succeed. -/
def placing (settings : Settings) (answer : Except BindError Unit) : Platform State :=
  { platform settings with
    bind := fun s _ _ _ => match answer with
      | .error cause => (.error cause, s)
      | .ok _ => (.ok (), { s with binds := s.binds + 1 }) }

/-- Nothing differs but how often memory was placed. -/
def SameMappings (s t : State) : Prop := ∃ binds, t = { s with binds }

theorem map_binds (settings : Settings) (s : State) (binds length : Nat) (pages : PageKind) :
    map settings { s with binds } length pages =
      (map settings s length pages).map id fun s => { s with binds } := by
  rw [map_eq, map_eq]
  change (if pages = .huge ∧ s.switches.failHuge then _
    else if s.switches.mapsLeft = some 0 then _
    else if settings.memoryLimit < s.liveBytes + length ∨
      settings.addressLimit < next settings s pages + length then _ else _) = _
  split_ifs <;> rfl

theorem placing_twins (settings : Settings) (cause : BindError) :
    (placing settings (.error cause)).Twins (placing settings (.ok ())) SameMappings where
  pageSize := rfl
  hugePageSize := rfl
  topology := rfl
  hugePagesAvailable := fun ⟨_, same⟩ => same ▸ rfl
  currentCpu? := fun ⟨_, same⟩ _ => same ▸ rfl
  now _ := rfl
  map := by
    rintro s _ ⟨binds, rfl⟩ length pages
    have mapped : (placing settings (.ok ())).map { s with binds } length pages =
        ((placing settings (.error cause)).map s length pages).map id fun s => { s with binds } :=
      map_binds ..
    rw [mapped]
    exact ⟨rfl, binds, rfl⟩
  unmap := fun ⟨binds, same⟩ _ _ => ⟨binds, same ▸ rfl⟩
  bind := fun ⟨binds, same⟩ _ _ _ => ⟨binds + 1, same ▸ rfl⟩

end Simulated

end NumaHeap
