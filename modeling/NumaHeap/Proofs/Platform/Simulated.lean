import NumaHeap.Platform.Simulated
import NumaHeap.Proofs.Platform.Contract
import NumaHeap.Proofs.Size.PowerOfTwo
import Mathlib.Data.List.Nodup

/-!
The simulated platform is one that heaps may rely on: its cursor stands behind everything that was
ever mapped, so that whatever is mapped next is apart from it. Its switches may be set at any time.
-/

namespace NumaHeap.Simulated

/-- The addresses of a mapping. -/
def Mapping.extent (m : Mapping) : Extent := ⟨m.start, m.length⟩

namespace State

/-- The ranges that are mapped. -/
def extents (s : State) : List Extent := s.live.map Mapping.extent

/-- All mappings end before the cursor, and no two of them are the same. -/
structure Sound (s : State) : Prop where
  positive : 0 < s.cursor
  behind : ∀ e ∈ s.extents, e.stop ≤ s.cursor
  nodup : s.extents.Nodup

end State

variable {settings : Settings} {s after : State} {length start node : Nat} {pages : PageKind}

/-- Where the next mapping would start. -/
def next (settings : Settings) (s : State) (pages : PageKind) : Nat :=
  s.cursor + ((platform settings).page pages).padding s.cursor

/-- The state after a mapping. -/
def State.mapped (settings : Settings) (s : State) (length : Nat) (pages : PageKind) : State :=
  { s with
    switches := { s.switches with mapsLeft := s.switches.mapsLeft.map (· - 1) }
    cursor := next settings s pages + length
    live := ⟨next settings s pages, length, pages⟩ :: s.live
    maps := s.maps + 1 }

theorem map_eq (settings : Settings) (s : State) (length : Nat) (pages : PageKind) :
    map settings s length pages =
      if pages = .huge ∧ s.switches.failHuge then (.error .hugePagesUnavailable, s)
      else if s.switches.mapsLeft = some 0 then (.error s.switches.mapError, s)
      else if settings.memoryLimit < s.liveBytes + length ∨
          settings.addressLimit < next settings s pages + length then (.error .outOfMemory, s)
      else (.ok (next settings s pages), s.mapped settings length pages) := by
  cases pages with
  | normal => rfl
  | huge => rfl

/-- A map is refused with the state as it was, or made at the next start. -/
theorem map_cases (settings : Settings) (s : State) (length : Nat) (pages : PageKind) :
    (∃ cause, map settings s length pages = (.error cause, s)) ∨
      (next settings s pages + length ≤ settings.addressLimit ∧
        map settings s length pages =
          (.ok (next settings s pages), s.mapped settings length pages)) := by
  rw [map_eq]
  split
  · exact .inl ⟨_, rfl⟩
  · split
    · exact .inl ⟨_, rfl⟩
    · split
      · exact .inl ⟨_, rfl⟩
      · next fits => exact .inr ⟨Nat.le_of_not_lt fun beyond => fits (.inr beyond), rfl⟩

theorem map_spec (limit : settings.addressLimit ≤ Word.bound)
    (mapped : map settings s length pages = (.ok start, after)) :
    s.cursor ≤ start ∧ ((platform settings).page pages).value ∣ start ∧
      start + length ≤ Word.bound ∧ after.cursor = start + length ∧
      after.extents = ⟨start, length⟩ :: s.extents := by
  rcases map_cases settings s length pages with ⟨cause, refused⟩ | ⟨fits, made⟩
  · rw [refused] at mapped
    cases mapped
  · rw [made, Prod.mk.injEq, Except.ok.injEq] at mapped
    obtain ⟨rfl, rfl⟩ := mapped
    have above : s.cursor ≤ next settings s pages := Nat.le_add_right ..
    have below : next settings s pages + length ≤ Word.bound := Nat.le_trans fits limit
    have inside : s.cursor ≤ Word.bound := by omega
    exact ⟨above, PowerOfTwo.value_dvd_add_padding _ inside, below, rfl, rfl⟩

/-- Mappings end within the limit. -/
theorem map_stop_le (mapped : map settings s length pages = (.ok start, after)) :
    start + length ≤ settings.addressLimit := by
  rcases map_cases settings s length pages with ⟨cause, refused⟩ | ⟨fits, made⟩
  · rw [refused] at mapped
    cases mapped
  · rw [made, Prod.mk.injEq, Except.ok.injEq] at mapped
    exact mapped.1 ▸ fits

theorem map_refused {cause : MapError}
    (mapped : map settings s length pages = (.error cause, after)) : after = s := by
  rcases map_cases settings s length pages with ⟨cause, refused⟩ | ⟨-, made⟩
  · exact (Prod.mk.inj (refused.symm.trans mapped)).2.symm
  · rw [made] at mapped
    cases mapped

theorem unmap_extents (s : State) (start length : Nat) :
    (unmap s start length).extents = s.extents.erase ⟨start, length⟩ := by
  unfold State.extents unmap
  dsimp only
  induction s.live with
  | nil => rfl
  | cons m rest ih =>
    by_cases same : m.start = start ∧ m.length = length
    · have equal : m.extent = ⟨start, length⟩ := by rw [Mapping.extent, same.1, same.2]
      rw [List.eraseP_cons_of_pos (by simpa using same), List.map_cons, equal,
        List.erase_cons_head]
    · have different : m.extent ≠ ⟨start, length⟩ := by
        intro equal
        rw [Mapping.extent, Extent.mk.injEq] at equal
        exact same equal
      rw [List.eraseP_cons_of_neg (by simpa using same), List.map_cons, List.map_cons, ih,
        List.erase_cons_tail (by simpa using different)]

theorem place_extents (settings : Settings) (s : State) (node : Nat) :
    (place settings s node).2.cursor = s.cursor ∧
      (place settings s node).2.extents = s.extents := by
  unfold place
  split
  · exact ⟨rfl, rfl⟩
  · split
    · exact ⟨rfl, rfl⟩
    · exact ⟨rfl, rfl⟩

theorem State.Sound.congr (sound : s.Sound) (cursor : after.cursor = s.cursor)
    (extents : after.extents = s.extents) : after.Sound where
  positive := cursor ▸ sound.positive
  behind := by
    rw [extents, cursor]
    exact sound.behind
  nodup := extents ▸ sound.nodup

/-- Heaps may rely on the simulated platform, if its huge pages consist of whole pages. -/
def contract (settings : Settings) (whole : settings.pageSize.value ≤ settings.hugePageSize.value)
    (limit : settings.addressLimit ≤ Word.bound) : (platform settings).Contract where
  Possible := State.Sound
  Mapped s e := e ∈ s.extents
  Drifts s after := after = { s with switches := after.switches }
  map_ok {s after length pages start} sound asked mapped := by
    obtain ⟨above, aligned, below, cursor, extents⟩ := map_spec limit mapped
    have apart : ∀ e ∈ s.extents, e.Apart ⟨start, length⟩ :=
      fun e member => .inl (Nat.le_trans (sound.behind e member) above)
    have fresh : (⟨start, length⟩ : Extent) ∉ s.extents :=
      fun member => Extent.not_apart_self asked.1 (apart _ member)
    refine ⟨⟨?_, ?_, ?_⟩, Nat.lt_of_lt_of_le sound.positive above, ?_, below, apart, fun e => ?_⟩
    · rw [cursor]
      exact Nat.add_pos_right _ asked.1
    · rw [cursor, extents]
      refine List.forall_mem_cons.2 ⟨Nat.le_refl _, fun e member => ?_⟩
      exact Nat.le_trans (sound.behind e member) (Nat.le_trans above (Nat.le_add_right ..))
    · rw [extents]
      exact List.nodup_cons.2 ⟨fresh, sound.nodup⟩
    · cases pages with
      | normal => exact aligned
      | huge => exact Nat.dvd_trans (PowerOfTwo.value_dvd_of_value_le whole) aligned
    · rw [extents, List.mem_cons]
  map_error {s after length pages cause} sound _ mapped := by
    rw [map_refused mapped]
    exact ⟨sound, fun _ => Iff.rfl⟩
  unmap {s start length} sound _ := by
    have extents := unmap_extents s start length
    refine ⟨⟨sound.positive, fun e member => ?_, ?_⟩, fun e => ?_⟩
    · exact sound.behind e (List.mem_of_mem_erase (extents ▸ member))
    · exact extents ▸ sound.nodup.erase _
    · change e ∈ (unmap s start length).extents ↔ _
      rw [extents, sound.nodup.mem_erase_iff, and_comm]
  bind {s start length node} sound _ := by
    obtain ⟨cursor, extents⟩ := place_extents settings s node
    exact ⟨sound.congr cursor extents, fun e => iff_of_eq (congrArg (e ∈ ·) extents)⟩
  bindThread {s thread node} sound := by
    obtain ⟨cursor, extents⟩ := place_extents settings s node
    exact ⟨sound.congr cursor extents, fun e => iff_of_eq (congrArg (e ∈ ·) extents)⟩
  drift {s after} sound drifts := by
    have extents : after.extents = s.extents := by rw [drifts, State.extents, State.extents]
    exact ⟨sound.congr (by rw [drifts]) extents, fun e member => extents.symm ▸ member⟩

/-- The same promises where the cursor may go back between two uses, to any place behind what is still
mapped, so that addresses which were given back are used again. -/
def reusing (settings : Settings) (whole : settings.pageSize.value ≤ settings.hugePageSize.value)
    (limit : settings.addressLimit ≤ Word.bound) : (platform settings).Contract where
  __ := contract settings whole limit
  Drifts s after := after.Sound ∧ after.extents = s.extents
  drift {s after} _ drifts := by
    refine ⟨drifts.1, fun e member => ?_⟩
    change e ∈ after.extents
    exact drifts.2.symm ▸ member

/-- Nothing is mapped at first. -/
theorem machine_sound (switches : Switches) : (machine switches).system.Sound where
  positive := show 0 < 65536 by decide
  behind := nofun
  nodup := List.nodup_nil

end NumaHeap.Simulated
