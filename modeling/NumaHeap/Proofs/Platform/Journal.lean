import NumaHeap.Proofs.Platform.Trades

/-!
A platform that keeps a journal. It answers as the platform below it does, and records every mapping
that is made or given back; others may add what they do with the memory. Entries stand latest first,
so that what is true of a journal is told by its first entry and the journal before it.
-/

namespace NumaHeap

/-- Something that happened to memory. -/
inductive Entry where
  | mapped (extent : Extent)
  | unmapped (extent : Extent)
  | handed (extent : Extent)
  | wrote (address : Nat) (bytes : List UInt8)
deriving DecidableEq

/-- A system together with what happened so far, latest first. -/
structure Journaled (σ : Type) where
  system : σ
  entries : List Entry := []

namespace Journal

/-- The ranges that are mapped in the end. There is no answer if some range was given back that was
not mapped at that moment. -/
def mapped? : List Entry → Option (List Extent)
  | [] => some []
  | .mapped extent :: earlier => (mapped? earlier).map (extent :: ·)
  | .unmapped extent :: earlier =>
    (mapped? earlier).bind fun live => if extent ∈ live then some (live.erase extent) else none
  | _ :: earlier => mapped? earlier

end Journal

variable {σ : Type}

/-- The platform with a journal of its mappings. -/
def Platform.journaled (os : Platform σ) : Platform (Journaled σ) where
  pageSize := os.pageSize
  hugePageSize := os.hugePageSize
  topology := os.topology
  hugePagesAvailable s := os.hugePagesAvailable s.system
  currentCpu? s := os.currentCpu? s.system
  now s := os.now s.system
  map s length pages :=
    match os.map s.system length pages with
    | (.ok start, system) => (.ok start, ⟨system, .mapped ⟨start, length⟩ :: s.entries⟩)
    | (.error cause, system) => (.error cause, { s with system })
  unmap s start length :=
    ⟨os.unmap s.system start length, .unmapped ⟨start, length⟩ :: s.entries⟩
  bind s start length node :=
    let (answer, system) := os.bind s.system start length node
    (answer, { s with system })
  bindThread s thread node :=
    let (answer, system) := os.bindThread s.system thread node
    (answer, { s with system })

namespace Journaled

variable {os : Platform σ} {s after : Journaled σ} {length start : Nat} {pages : PageKind}
  {held other new removed : List Region}

theorem map_ok (mapped : os.journaled.map s length pages = (.ok start, after)) :
    os.map s.system length pages = (.ok start, after.system) ∧
      after.entries = .mapped ⟨start, length⟩ :: s.entries := by
  unfold Platform.journaled at mapped
  dsimp only at mapped
  split at mapped
  · next first system same =>
    cases mapped
    exact ⟨same, rfl⟩
  · cases mapped

theorem map_error {cause : MapError}
    (mapped : os.journaled.map s length pages = (.error cause, after)) :
    os.map s.system length pages = (.error cause, after.system) ∧ after.entries = s.entries := by
  unfold Platform.journaled at mapped
  dsimp only at mapped
  split at mapped
  · cases mapped
  · next first system same =>
    cases mapped
    exact ⟨same, rfl⟩

/-- The regions are what the journal says is mapped. -/
def Balanced (s : Journaled σ) (held : List Region) : Prop :=
  ∃ live, Journal.mapped? s.entries = some live ∧ live.Perm (held.map Region.extent)

theorem Balanced.of_entries (balanced : s.Balanced held) (same : after.entries = s.entries) :
    after.Balanced held := by
  unfold Balanced
  rw [same]
  exact balanced

theorem Balanced.gains (balanced : s.Balanced held) (gains : os.journaled.Gains s after new) :
    after.Balanced (new ++ held) := by
  induction gains with
  | refl => exact balanced
  | mapped _ _ answer ih =>
    obtain ⟨live, replay, same⟩ := ih
    refine ⟨_, ?_, same.cons _⟩
    rw [(map_ok answer).2, Journal.mapped?, replay, Option.map_some]
    rfl
  | refused _ _ answer ih => exact ih.of_entries (map_error answer).2
  | bound _ _ ih => exact ih.of_entries rfl

theorem Balanced.unmapAll (balanced : s.Balanced (removed ++ held)) :
    (os.journaled.unmapAll s removed).Balanced held := by
  induction removed generalizing s with
  | nil => exact balanced
  | cons region rest ih =>
    apply ih
    obtain ⟨live, replay, same⟩ := balanced
    have member : region.extent ∈ live := same.mem_iff.2 (List.mem_cons_self ..)
    refine ⟨live.erase region.extent, ?_, ?_⟩
    · change (Journal.mapped? s.entries).bind _ = _
      rw [replay]
      exact if_pos member
    · have shorter := same.erase region.extent
      rwa [List.cons_append, List.map_cons, List.erase_cons_head] at shorter

/-- Trades keep the journal balanced, whatever the platform below does. -/
theorem Balanced.trades (balanced : s.Balanced held)
    (trades : os.journaled.Trades s held after other) : after.Balanced other := by
  induction trades with
  | refl => exact balanced
  | gain _ gains ih => exact ih.gains gains
  | shed _ ih => exact ih.unmapAll
  | perm _ same ih =>
    obtain ⟨live, replay, equal⟩ := ih
    exact ⟨live, replay, equal.trans (same.map _)⟩
  | place _ ih => exact ih.of_entries rfl

end Journaled

end NumaHeap
