import NumaHeap.Proofs.Arena.Serve
import NumaHeap.Proofs.Size.Fit

/-!
Requests that an arena denies. A block that was found or mapped for a request has room for it, so that
a chain denies a request only before it has changed anything; and what the pool has done by then is to
make a slot for a thread that had none.
-/

namespace NumaHeap

/-- The start of a page leaves less than a word to pad for an alignment up to that of a page. -/
theorem PowerOfTwo.padding_lt_eight {alignment page : PowerOfTwo} {start : Nat}
    (modest : alignment.value ≤ Max.max page.value wordAlignment.value)
    (aligned : page.value ∣ start) : alignment.padding start < 8 := by
  by_cases small : alignment.value ≤ page.value
  · have divides : alignment.value ∣ start := Nat.dvd_trans (value_dvd_of_value_le small) aligned
    rw [padding_eq, Nat.mod_eq_zero_of_dvd (Nat.dvd_sub alignment.value_dvd_bound divides)]
    decide
  · have word : wordAlignment.value = 8 := by decide
    have below := alignment.padding_lt start
    omega

namespace Arena

variable {σ : Type} {os : Platform σ} {contract : os.Contract} {alignment : PowerOfTwo}
  {error : AllocError} {id : Nat} {thread : ThreadId}

/-- A new block offers all of its region, less the padding. -/
theorem Block.ofRegion_fits {region : Region} {size : Nat} (positive : 0 < region.start)
    (within : region.stop ≤ Word.bound)
    (room : alignment.padding region.start + size ≤ region.length) :
    (Block.ofRegion region).fits size alignment = true := by
  unfold Region.stop at within
  have sum : Word.add? (alignment.padding region.start) size =
      some (alignment.padding region.start + size) := Word.fit?_eq_some_iff.2 ⟨by omega, rfl⟩
  unfold fits
  dsimp only [ofRegion]
  rw [sum]
  refine decide_eq_true ?_
  simp only [available, Region.stop]
  omega

namespace Chain

variable {c after : Chain} {s supply : Supply σ} {r : Request} {blockSize : PowerOfTwo}
  {index node : Nat}

/-- A request is served from a block in which it fits. -/
theorem serveFrom_of_fits {block : Block} (found : c.blocks[index]? = some block)
    (fits : block.fits r.rounded r.alignment = true) (node : Nat) :
    (c.serveFrom node index r).1 ≠ .error error := by
  have there : (c.advance node index).blocks[index]? = some block := found
  simp only [serveFrom, takeFrom?, there, bind, Option.bind_some, Block.take?, fits, if_true,
    pure]
  simp

/-- A block has room for the request that it is mapped for, and for less than a word of padding. -/
theorem blockLength?_room {rounded length padding : Nat} (least : 8 ≤ rounded) (few : padding < 8)
    (some : blockLength? blockSize rounded = some length) : padding + rounded ≤ length := by
  unfold blockLength? at some
  split at some
  · rw [Word.add?, Word.fit?_eq_some_iff, Size.blockSlop] at some
    omega
  · cases some
    omega

/-- A new block is the last one. It begins on a page, and is as long as it was asked to be. -/
theorem extend_block {larger : Chain} {rounded : Nat} (possible : contract.Possible s.machine.system)
    (extended : c.extend os blockSize s rounded node = (.ok larger, supply)) :
    ∃ region length, larger.blocks[c.blocks.length]? = some (.ofRegion region) ∧
      blockLength? blockSize rounded = some length ∧ length ≤ region.length ∧
      0 < region.start ∧ region.stop ≤ Word.bound ∧ os.pageSize.value ∣ region.start := by
  obtain ⟨region, length, grows, blocks, -, enough, long⟩ := (extend_spec extended).1 larger rfl
  have custody : os.Custody contract supply.machine.system ([region] ++ []) :=
    grows.gains.custody (.nil possible)
  have mine : region ∈ [region] ++ [] := List.mem_singleton_self region
  refine ⟨region, length, ?_, enough, long, custody.start_pos region mine,
    custody.within region mine, custody.aligned region mine⟩
  rw [blocks, List.getElem?_concat_length]

/-- A chain denies a request only for want of a new block, and is then as it was. -/
theorem extend_of_denied (possible : contract.Possible s.machine.system)
    (modest : r.alignment.value ≤ Max.max os.pageSize.value wordAlignment.value)
    (least : 8 ≤ r.rounded)
    (served : c.allocate os blockSize s r = (.error error, after, supply)) :
    after = c ∧
      c.extend os blockSize s r.rounded (r.node.getD c.preferred) = (.error error, supply) := by
  simp only [allocate] at served
  split at served
  · cases served
  · split at served
    · next index candidate =>
      obtain ⟨-, block, found, -, fits⟩ := candidate?_spec candidate
      exact absurd (congrArg Prod.fst served) (serveFrom_of_fits found fits _)
    · split at served
      · next denied =>
        cases served
        exact ⟨rfl, denied⟩
      · next larger middle extended =>
        obtain ⟨region, length, found, enough, long, positive, within, aligned⟩ :=
          extend_block possible extended
        have few := PowerOfTwo.padding_lt_eight modest aligned
        have room := Nat.le_trans (blockLength?_room least few enough) long
        have fits := Block.ofRegion_fits positive within room
        exact absurd (congrArg Prod.fst served) (serveFrom_of_fits found fits _)

/-- A new block is denied because it has no length or no mapping. -/
theorem extend_denied {rounded : Nat}
    (denied : c.extend os blockSize s rounded node = (.error error, supply)) :
    error = .overflow ∧ blockLength? blockSize rounded = none ∧ supply = s ∨
      ∃ cause length, error = .map cause ∧ s.map os length node = (.error cause, supply) := by
  unfold extend at denied
  split at denied
  · next endless =>
    cases denied
    exact .inl ⟨rfl, endless, rfl⟩
  · next length _ =>
    split at denied
    · next cause _ mapped =>
      cases denied
      exact .inr ⟨cause, length, rfl, mapped⟩
    · cases denied

/-- Where a map that fails has no effect, a denial leaves no trace but a count of fallbacks. -/
theorem allocate_denied (possible : contract.Possible s.machine.system) (harmless : os.Harmless)
    (modest : r.alignment.value ≤ Max.max os.pageSize.value wordAlignment.value)
    (least : 8 ≤ r.rounded)
    (served : c.allocate os blockSize s r = (.error error, after, supply)) :
    after = c ∧ supply.machine = s.machine ∧ ∃ count,
      supply.mapper = s.mapper.withFallbacks (s.mapper.hugeFallbacks + count) := by
  obtain ⟨rfl, denied⟩ := extend_of_denied possible modest least served
  refine ⟨rfl, ?_⟩
  rcases extend_denied denied with ⟨-, -, rfl⟩ | ⟨cause, length, -, mapped⟩
  · exact ⟨rfl, 0, rfl⟩
  · exact Supply.map_denied harmless mapped

end Chain

/-- All is as it was but the count of fallbacks, and a thread that had no slot may have an empty one. -/
structure State.Enrolls (thread : ThreadId) (a b : State) : Prop where
  rest : b = { a with
    mapper := a.mapper.withFallbacks b.mapper.hugeFallbacks
    slots := b.slots }
  slots : b.slots = a.slots ∨ a.slotOf? thread = none ∧
    ∃ address preferred, b.slots = a.slots ++ [⟨address, thread, a.generation, { preferred }⟩]

namespace State.Enrolls

variable {a b c : State}

theorem refl (thread : ThreadId) (a : State) : a.Enrolls thread a := ⟨rfl, .inl rfl⟩

theorem trans (first : a.Enrolls thread b) (second : b.Enrolls thread c) : a.Enrolls thread c where
  rest := by
    rw [second.rest, first.rest]
    rfl
  slots := by
    have generation : b.generation = a.generation := by rw [first.rest]
    rcases first.slots with same | ⟨none, address, preferred, joined⟩
    · rcases second.slots with again | ⟨none, address, preferred, joined⟩
      · exact .inl (again.trans same)
      · rw [same, generation] at joined
        rw [slotOf?, same] at none
        exact .inr ⟨none, address, preferred, joined⟩
    · rcases second.slots with again | ⟨lost, -⟩
      · exact .inr ⟨none, address, preferred, again.trans joined⟩
      · rw [slotOf?, joined] at lost
        simp at lost

end State.Enrolls

/-- To give a slot the chain that it has is to do nothing. -/
theorem State.setChain_self {a : State} {slot : Slot} (sound : a.Sound) (member : slot ∈ a.slots) :
    a.setChain slot.address slot.chain = a := by
  have same : ∀ other ∈ a.slots,
      (if other.address = slot.address then { other with chain := slot.chain } else other) = other := by
    intro other there
    split
    · next here => cases sound.eq_of_address there member here; rfl
    · rfl
  unfold setChain
  rw [List.map_congr_left same, List.map_id']

namespace Pool

variable {p after last : Pool} {machine later : Machine σ} {slot : Slot}

/-- No arena has changed but for its count of fallbacks and an empty slot for the thread, and no guards
but those of the thread. -/
structure Enrolls (thread : ThreadId) (p after : Pool) : Prop where
  arenas : ∀ {id a}, p.arena? id = some a → ∃ b, after.arena? id = some b ∧ a.Enrolls thread b
  count : after.arenas.length = p.arenas.length
  guards : ∀ other, other ≠ thread → after.guards other = p.guards other
  nextGeneration : after.nextGeneration = p.nextGeneration

namespace Enrolls

theorem refl (thread : ThreadId) (p : Pool) : p.Enrolls thread p :=
  ⟨fun found => ⟨_, found, .refl thread _⟩, rfl, fun _ _ => rfl, rfl⟩

theorem trans (first : p.Enrolls thread after) (second : after.Enrolls thread last) :
    p.Enrolls thread last where
  arenas found := by
    obtain ⟨b, there, one⟩ := first.arenas found
    obtain ⟨c, here, two⟩ := second.arenas there
    exact ⟨c, here, one.trans two⟩
  count := second.count.trans first.count
  guards other different := (second.guards other different).trans (first.guards other different)
  nextGeneration := second.nextGeneration.trans first.nextGeneration

theorem modify {a : State} {f : State → State} (found : p.arena? id = some a)
    (joins : a.Enrolls thread (f a)) : p.Enrolls thread (p.modify id f) where
  arenas {other b} there := by
    by_cases here : id = other
    · subst here
      cases Option.some.inj (found.symm.trans there)
      exact ⟨f a, arena?_modify_self found, joins⟩
    · exact ⟨b, (arena?_modify_of_ne here).trans there, .refl thread b⟩
  count := List.length_modify ..
  guards _ _ := rfl
  nextGeneration := rfl

theorem setGuards (p : Pool) (thread : ThreadId) (kept : List Guard) :
    p.Enrolls thread (p.setGuards thread kept) :=
  ⟨fun found => ⟨_, found, .refl thread _⟩, rfl, fun _ different => if_neg different, rfl⟩

end Enrolls

theorem register_enrolls (registered : p.register os machine id thread = some (slot, after)) :
    p.Enrolls thread after := by
  cases found : p.arena? id with
  | none => simp [register, found, bind] at registered
  | some a =>
    cases present : a.slotOf? thread with
    | some old =>
      simp only [register, found, present, bind, Option.bind_some, pure, Option.some.injEq,
        Prod.mk.injEq] at registered
      obtain ⟨-, rfl⟩ := registered
      exact .refl thread p
    | none =>
      simp only [register, found, present, bind, Option.bind_some, pure, Option.some.injEq,
        Prod.mk.injEq] at registered
      obtain ⟨-, rfl⟩ := registered
      exact .modify found ⟨rfl, .inr ⟨present, _, _, rfl⟩⟩

theorem threadSlot_enrolls (sound : p.Sound)
    (some : p.threadSlot os machine id thread = some (slot, after, later)) :
    p.Enrolls thread after := by
  unfold threadSlot at some
  split at some
  · cases some
    exact .refl thread p
  · simp only [bind, Option.bind_eq_some_iff] at some
    obtain ⟨⟨made, middle⟩, registered, some⟩ := some
    rw [dropGuardsWhere_stale (register_spec sound registered).1.arenas] at some
    cases some
    exact (register_enrolls registered).trans ((Enrolls.setGuards ..).trans (.setGuards ..))

/-- A request that an arena denies leaves nothing behind but an empty slot. -/
theorem allocate_denied {size : Nat} {node : Option Nat} (sound : p.Sound)
    (possible : contract.Possible machine.system) (harmless : os.Harmless)
    (modest : alignment.value ≤ Max.max os.pageSize.value wordAlignment.value)
    (served : p.allocate os machine id thread size alignment node = (.error error, after, later)) :
    p.Enrolls thread after ∧ later = machine := by
  cases allocate_outcome served with
  | invalid => exact ⟨.refl thread p, rfl⟩
  | lost found none =>
    obtain ⟨-, -, -, a, there, -⟩ := threadSlot_spec sound found
    cases none.symm.trans there
  | chained enough found there answered =>
    have joined := threadSlot_enrolls sound found
    obtain ⟨rfl, good, -, a, here, member, -⟩ := threadSlot_spec sound found
    cases there.symm.trans here
    obtain ⟨rfl, machine, count, mapper⟩ := Chain.allocate_denied possible harmless modest
      (Size.eight_le_arenaRounded enough) answered
    have unchanged := State.setChain_self (good.arenas id _ there) member
    refine ⟨joined.trans (.modify there ⟨?_, .inl ?_⟩), machine⟩
    · rw [unchanged, mapper]
      rfl
    · rw [unchanged]

end Pool

end Arena

end NumaHeap
