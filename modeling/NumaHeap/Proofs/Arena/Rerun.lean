import NumaHeap.Proofs.Arena.Ownership
import NumaHeap.Proofs.Arena.Replay

/-!
An arena that is reset and asked for the same again, by any number of threads. A thread is served
from its own chain, whatever the others do: a run of the arena is a run of every chain, and runs of
the chains with their requests in any order make up a run of the arena.
-/

namespace NumaHeap.Arena

namespace Pool

/-- What a thread asks of an arena. -/
structure Ask where
  thread : ThreadId
  size : Nat
  alignment : PowerOfTwo
  node : Option Nat

variable {σ : Type}

/-- What the chain of the thread is asked for, unless the arena turns the request down itself. -/
def Ask.request? (os : Platform σ) (ask : Ask) : Option Request :=
  if ask.size = 0 ∨ ask.node.any (!os.topology.contains ·) then none
  else (Size.arenaRounded? ask.size).map fun rounded =>
    ⟨ask.size, rounded, ask.alignment, ask.node⟩

/-- Asks an arena for memory. -/
def answer (os : Platform σ) (p : Pool) (machine : Machine σ) (id : Nat) (ask : Ask) :
    Except AllocError Placement × Pool × Machine σ :=
  p.allocate os machine id ask.thread ask.size ask.alignment ask.node

/-- Requests that an arena serves one after the other, each time on whatever machine there is. -/
inductive Yields (os : Platform σ) (id : Nat) : Pool → List (Ask × Placement) → Pool → Prop
  | nil (p : Pool) : Yields os id p [] p
  | cons {p next last : Pool} {machine later : Machine σ} {ask : Ask} {placement : Placement}
      {rest : List (Ask × Placement)} :
      p.answer os machine id ask = (.ok placement, next, later) →
      Yields os id next rest last → Yields os id p ((ask, placement) :: rest) last

/-- Requests that an arena serves without any use of the machine, whatever it is. -/
inductive Repeats (os : Platform σ) (id : Nat) : Pool → List (Ask × Placement) → Pool → Prop
  | nil (p : Pool) : Repeats os id p [] p
  | cons {p next last : Pool} {ask : Ask} {placement : Placement}
      {rest : List (Ask × Placement)} :
      (∀ machine : Machine σ, p.answer os machine id ask = (.ok placement, next, machine)) →
      Repeats os id next rest last → Repeats os id p ((ask, placement) :: rest) last

/-- The requests of one thread, as its chain sees them. -/
def requestsOf (os : Platform σ) (thread : ThreadId) (transcript : List (Ask × Placement)) :
    List (Request × Placement) :=
  transcript.filterMap fun (ask, placement) =>
    if ask.thread = thread then (ask.request? os).map (·, placement) else none

/-- The chain of a thread. -/
def chainOf? (p : Pool) (id : Nat) (thread : ThreadId) : Option Chain :=
  (p.slotOf? id thread).map (·.chain)

/-- The arena is in use, and its blocks are of this size. -/
def Sized (p : Pool) (id : Nat) (blockSize : PowerOfTwo) : Prop :=
  ∃ a, p.arena? id = some a ∧ a.active = true ∧ a.blockSize = blockSize

/-- Threads that have a chain get another. -/
def withChains (p : Pool) (id : Nat) (chains : ThreadId → Chain) : Pool :=
  p.modify id fun a =>
    { a with slots := a.slots.map fun slot => { slot with chain := chains slot.owner } }

variable {os : Platform σ} {p next last : Pool} {machine later : Machine σ} {id : Nat}
  {thread t : ThreadId} {slot : Slot} {a : State} {ask : Ask} {placement : Placement} {r : Request}
  {rest transcript : List (Ask × Placement)} {blockSize : PowerOfTwo} {f : State → State}
  {h : Slot → Slot}

theorem Yields.step (p : Pool) (machine : Machine σ) (ask : Ask)
    (served : (p.answer os machine id ask).1 = .ok placement)
    (yields : Yields os id (p.answer os machine id ask).2.1 rest last) :
    Yields os id p ((ask, placement) :: rest) last :=
  .cons (Prod.ext served rfl) yields

theorem answer_eq (request : ask.request? os = some r) :
    p.answer os machine id ask = p.serve os machine id ask.thread r := by
  unfold Ask.request? at request
  split at request
  · cases request
  · next sensible =>
    rw [not_or] at sensible
    obtain ⟨rounded, enough, rfl⟩ := Option.map_eq_some_iff.1 request
    have known : ask.node.filter (!os.topology.contains ·) = none := by
      refine Option.filter_eq_none_iff.2 fun node asked unknown => sensible.2 ?_
      rw [asked]
      exact unknown
    rw [answer, allocate, if_neg sensible.1, known, enough]

theorem request?_of_answer (served : p.answer os machine id ask = (.ok placement, next, later)) :
    ∃ r, ask.request? os = some r := by
  unfold answer allocate at served
  split at served
  · cases served
  · next positive =>
    split at served
    · cases served
    · next node =>
      split at served
      · cases served
      · next rounded enough =>
        have known : ¬ask.node.any (!os.topology.contains ·) := by
          intro unknown
          obtain ⟨other, asked, off⟩ := (Option.any_eq_true _ _).1 unknown
          rw [asked, Option.filter_some, if_pos off] at node
          cases node
        refine ⟨⟨ask.size, rounded, ask.alignment, ask.node⟩, ?_⟩
        rw [Ask.request?, if_neg (not_or.2 ⟨positive, known⟩), enough, Option.map_some]

theorem requestsOf_cons_self (os : Platform σ) (placement : Placement)
    (rest : List (Ask × Placement)) (request : ask.request? os = some r) :
    requestsOf os ask.thread ((ask, placement) :: rest) =
      (r, placement) :: requestsOf os ask.thread rest := by
  rw [requestsOf, List.filterMap_cons]
  simp only [if_pos, request, Option.map_some]
  rfl

theorem requestsOf_cons_of_ne (os : Platform σ) (placement : Placement)
    (rest : List (Ask × Placement)) (different : ask.thread ≠ thread) :
    requestsOf os thread ((ask, placement) :: rest) = requestsOf os thread rest := by
  rw [requestsOf, List.filterMap_cons]
  simp only [if_neg different]
  rfl

theorem slotOf?_modify (slots : ∀ a, (f a).slots = a.slots.map h)
    (owner : ∀ slot, (h slot).owner = slot.owner) :
    (p.modify id f).slotOf? id thread = (p.slotOf? id thread).map h := by
  unfold slotOf?
  rw [arena?_modify, if_pos rfl]
  cases p.arena? id with
  | none => rfl
  | some a =>
    simp only [Option.map_some, Option.bind_some, State.slotOf?, slots, List.find?_map]
    congr 2
    funext slot
    rw [Function.comp_apply, owner]

theorem slotOf?_of_makes (makes : p.Makes id thread slot next) :
    next.slotOf? id t = (p.slotOf? id t).or (if t = thread then some slot else none) := by
  obtain ⟨a, found, -⟩ := makes.arena
  rw [Pool.slotOf?, makes.arena?_eq found, Pool.slotOf?, found, Option.bind_some, Option.bind_some,
    State.slotOf?, List.find?_append, State.slotOf?, List.find?_singleton, makes.owner]
  simp only [beq_iff_eq, eq_comm (a := t)]

/-- A thread has one slot, and this is the one. -/
theorem Orderly.slotOf?_eq (orderly : p.Orderly) (owns : p.Owns id thread slot) :
    p.slotOf? id thread = some slot := by
  obtain ⟨other, found⟩ : ∃ other, p.slotOf? id thread = some other := slotOf?_isSome owns.stands
  have also := owns_of_slotOf? found
  have guards := orderly.alone also.stands owns.stands rfl
  obtain ⟨a, here, member, -⟩ := owns
  obtain ⟨b, there, inside, -⟩ := also
  cases here.symm.trans there
  have inner := orderly.sound.arenas id a here
  rw [found, inner.eq_of_address inside member (congrArg Guard.slot guards)]

/-- The slot that serves a thread is the one it has from then on. -/
theorem Orderly.located {middle : Pool} {between : Machine σ} (orderly : p.Orderly)
    (found : p.arena? id = some a)
    (located : p.threadSlot os machine id thread = some (slot, middle, between)) :
    (∃ b, middle.arena? id = some b ∧ b.active = a.active ∧ b.blockSize = a.blockSize ∧
        b.mapper = a.mapper) ∧
      (p.chainOf? id thread = some slot.chain ∨
        p.chainOf? id thread = none ∧ ∃ preferred, slot.chain = { preferred }) ∧
      ∀ t, middle.slotOf? id t = if t = thread then some slot else p.slotOf? id t := by
  obtain ⟨-, -, -, owns⟩ := threadSlot_spec orderly.sound located
  rcases threadSlot_cases orderly located with ⟨rfl, -⟩ | makes
  · have same := orderly.slotOf?_eq owns
    refine ⟨⟨a, found, rfl, rfl, rfl⟩, .inl (by rw [chainOf?, same, Option.map_some]), fun t => ?_⟩
    split
    · next here => rw [here, same]
    · rfl
  · have none : p.slotOf? id thread = none := by
      refine Option.eq_none_iff_forall_ne_some.2 fun old some => ?_
      exact makes.none (owns_of_slotOf? some).stands rfl
    refine ⟨⟨_, makes.arena?_eq found, rfl, rfl, rfl⟩,
      .inr ⟨by rw [chainOf?, none, Option.map_none], makes.empty⟩, fun t => ?_⟩
    rw [slotOf?_of_makes makes]
    split
    · next here => rw [here, none, Option.none_or]
    · rw [Option.or_none]

/-- The slot of one thread gets another chain, and all others keep theirs. -/
theorem Sound.chainOf?_replace {chain : Chain} (sound : p.Sound)
    (found : p.slotOf? id thread = some slot)
    (slots : ∀ a, (f a).slots =
      a.slots.map fun old => if old.address = slot.address then { old with chain } else old) :
    (p.modify id f).chainOf? id t = if t = thread then some chain else p.chainOf? id t := by
  obtain ⟨a, there, member, mine⟩ := owns_of_slotOf? found
  have owner (old : Slot) :
      (if old.address = slot.address then { old with chain } else old).owner = old.owner := by
    split <;> rfl
  rw [chainOf?, slotOf?_modify slots owner]
  split
  · next same => rw [same, found, Option.map_some, if_pos rfl, Option.map_some]
  · next different =>
    cases some : p.slotOf? id t with
    | none => rw [chainOf?, some, Option.map_none, Option.map_none]
    | some old =>
      obtain ⟨b, here, inside, owned⟩ := owns_of_slotOf? some
      cases there.symm.trans here
      have apart : old.address ≠ slot.address := by
        intro same
        cases (sound.arenas id a there).eq_of_address inside member same
        exact different (owned.symm.trans mine)
      rw [chainOf?, some, Option.map_some, if_neg apart]

/-- A chain that is made prefers the node on which its thread runs. -/
theorem Orderly.located_preferred {middle : Pool} {between : Machine σ} (orderly : p.Orderly)
    (found : p.arena? id = some a) (none : p.slotOf? id thread = none)
    (located : p.threadSlot os machine id thread = some (slot, middle, between)) :
    slot.chain = { preferred := if a.mapper.numaAware then machine.currentNode os thread else 0 } := by
  have absent : a.slotOf? thread = .none := by rwa [slotOf?, found, Option.bind_some] at none
  unfold threadSlot at located
  split at located
  · next old guarded =>
    have owned := orderly.slotOf?_eq (guardedSlot?_owns orderly.sound guarded)
    cases owned.symm.trans none
  · simp only [register, found, absent, bind, Option.bind_some, pure, Option.some.injEq,
      Prod.mk.injEq] at located
    obtain ⟨rfl, -⟩ := located
    rfl

/-- The chain of the thread answers a request; a thread that has none yet gets an empty one for it.
No other chain has a part in it. -/
theorem Orderly.asked {answer : Except AllocError Placement} (orderly : p.Orderly)
    (found : p.arena? id = some a) (active : a.active = true) (request : ask.request? os = some r)
    (served : p.answer os machine id ask = (answer, next, later)) :
    next.Orderly ∧ ∃ start chain, ∃ supply : Supply σ,
      (p.chainOf? id ask.thread = some start ∨
        p.chainOf? id ask.thread = none ∧ start = { preferred :=
          if a.mapper.numaAware then machine.currentNode os ask.thread else 0 }) ∧
      start.Sound ∧
      start.allocate os a.blockSize ⟨a.mapper, machine⟩ r = (answer, chain, supply) ∧
      supply.machine = later ∧
      (∃ b, next.arena? id = some b ∧ b.active = true ∧ b.blockSize = a.blockSize ∧
        b.mapper = supply.mapper) ∧
      ∀ t, next.chainOf? id t = if t = ask.thread then some chain else p.chainOf? id t := by
  have tidy := (orderly.allocate ⟨a, found, active⟩ served).1
  rw [answer_eq request] at served
  unfold serve at served
  split at served
  · next lost => exact absurd lost (threadSlot_ne_none found)
  · next slot middle between located =>
    obtain ⟨⟨b, there, on, size, mapper⟩, origin, slots⟩ := orderly.located found located
    obtain ⟨rfl, good, -, c, here, member, -⟩ := threadSlot_spec orderly.sound located
    cases there.symm.trans here
    have sound := (good.arenas id b there).chains slot member
    cases granted : slot.chain.allocate os b.blockSize ⟨b.mapper, between⟩ r with
    | mk answer result =>
      obtain ⟨chain, supply⟩ := result
      rw [there] at served
      dsimp only at served
      rw [granted] at served
      cases served
      refine ⟨tidy, slot.chain, chain, supply, ?_, sound, ?_, rfl,
        ⟨_, arena?_modify_self there, on.trans active, size, rfl⟩, fun t => ?_⟩
      · refine origin.imp_right fun made => ⟨made.1, ?_⟩
        exact orderly.located_preferred found (Option.map_eq_none_iff.1 made.1) located
      · rw [← size, ← mapper, granted]
      · have mine : middle.slotOf? id ask.thread = some slot := by rw [slots, if_pos rfl]
        rw [good.chainOf?_replace mine fun _ => rfl]
        split
        · rfl
        · next different => rw [chainOf?, slots, if_neg different, chainOf?]

/-- The chain of the thread serves a request; a thread that has none yet gets an empty one for it.
No other chain has a part in it. -/
theorem Orderly.answered (orderly : p.Orderly) (sized : p.Sized id blockSize)
    (served : p.answer os machine id ask = (.ok placement, next, later)) :
    next.Orderly ∧ next.Sized id blockSize ∧ ∃ r start chain, ∃ s supply : Supply σ,
      ask.request? os = some r ∧
      (p.chainOf? id ask.thread = some start ∨
        p.chainOf? id ask.thread = none ∧ ∃ preferred, start = { preferred }) ∧
      start.allocate os blockSize s r = (.ok placement, chain, supply) ∧
      ∀ t, next.chainOf? id t = if t = ask.thread then some chain else p.chainOf? id t := by
  obtain ⟨a, found, active, rfl⟩ := sized
  obtain ⟨r, request⟩ := request?_of_answer served
  obtain ⟨tidy, start, chain, supply, origin, -, granted, -, ⟨b, there, on, size, -⟩, chains⟩ :=
    orderly.asked found active request served
  exact ⟨tidy, ⟨b, there, on, size⟩, r, start, chain, _, supply, request,
    origin.imp_right fun made => ⟨made.1, _, made.2⟩, granted, chains⟩

/-- A run of an arena is a run of the chain of each thread. -/
theorem Yields.project (yields : Yields os id p transcript last) (orderly : p.Orderly)
    (sized : p.Sized id blockSize) :
    last.Orderly ∧ last.Sized id blockSize ∧
      (∀ {t c}, p.chainOf? id t = some c → ∃ d, last.chainOf? id t = some d) ∧
      (∀ x ∈ transcript, (∃ c, last.chainOf? id x.1.thread = some c) ∧
        ∃ r, x.1.request? os = some r) ∧
      ∀ {t c}, last.chainOf? id t = some c → ∃ start,
        (p.chainOf? id t = some start ∨
          p.chainOf? id t = none ∧ ∃ preferred, start = { preferred }) ∧
        Chain.Yields os blockSize start (requestsOf os t transcript) c := by
  induction yields with
  | nil p =>
    exact ⟨orderly, sized, fun {t c} here => ⟨c, here⟩, nofun,
      fun {t c} here => ⟨c, .inl here, .nil c⟩⟩
  | @cons p next last machine later ask placement rest served _ ih =>
    obtain ⟨tidy, same, r, start, chain, s, supply, request, origin, granted, chains⟩ :=
      orderly.answered sized served
    obtain ⟨good, lasting, kept, asked, runs⟩ := ih tidy same
    have mine : next.chainOf? id ask.thread = some chain := by rw [chains, if_pos rfl]
    refine ⟨good, lasting, fun {t c} here => ?_, ?_, fun {t c} here => ?_⟩
    · by_cases own : t = ask.thread
      · exact own ▸ kept mine
      · exact kept ((chains t).trans ((if_neg own).trans here))
    · exact List.forall_mem_cons.2 ⟨⟨kept mine, r, request⟩, asked⟩
    · obtain ⟨first, before, run⟩ := runs here
      by_cases own : t = ask.thread
      · subst own
        rw [mine] at before
        obtain rfl : chain = first := by simpa using before
        rw [requestsOf_cons_self os placement rest request]
        exact ⟨start, origin, .cons granted run⟩
      · rw [chains, if_neg own] at before
        rw [requestsOf_cons_of_ne os placement rest (Ne.symm own)]
        exact ⟨first, before, run⟩

section

variable {chains : ThreadId → Chain}

theorem Orderly.chainOf?_owner (orderly : p.Orderly) (found : p.arena? id = some a)
    (member : slot ∈ a.slots) : p.chainOf? id slot.owner = some slot.chain := by
  rw [chainOf?, orderly.slotOf?_eq ⟨a, found, member, rfl⟩, Option.map_some]

theorem arena?_withChains (found : p.arena? id = some a) :
    (p.withChains id chains).arena? id = some
      { a with slots := a.slots.map fun slot => { slot with chain := chains slot.owner } } :=
  arena?_modify_self found

theorem Orderly.withChains_congr {others : ThreadId → Chain} (orderly : p.Orderly)
    (found : p.arena? id = some a)
    (same : ∀ {t c}, p.chainOf? id t = some c → chains t = others t) :
    p.withChains id chains = p.withChains id others := by
  apply modify_congr found
  have slots : a.slots.map (fun slot => { slot with chain := chains slot.owner }) =
      a.slots.map fun slot => { slot with chain := others slot.owner } := by
    apply List.map_congr_left
    intro slot member
    rw [same (orderly.chainOf?_owner found member)]
  rw [slots]

theorem guardedSlot?_withChains (p : Pool) (id : Nat) (chains : ThreadId → Chain) (t : ThreadId) :
    (p.withChains id chains).guardedSlot? id t =
      (p.guardedSlot? id t).map fun slot => { slot with chain := chains slot.owner } := by
  simp only [guardedSlot?, withChains, arena?_modify, if_pos, bind]
  cases p.arena? id with
  | none => rfl
  | some a =>
    simp only [Option.map_some, Option.bind_some]
    change ((p.guards t).find? (·.generation == a.generation)).bind _ = _
    cases (p.guards t).find? (·.generation == a.generation) with
    | none => rfl
    | some g =>
      simp only [Option.bind_some, State.slotAt?, List.find?_map]
      rfl

/-- A thread that has a chain is served from it without any other effect, if nothing has to be
mapped. -/
theorem Orderly.answer_again {c chain : Chain} (orderly : p.Orderly) (sized : p.Sized id blockSize)
    (mine : p.chainOf? id ask.thread = some c) (request : ask.request? os = some r)
    (granted : ∀ s : Supply σ,
      (chains ask.thread).allocate os blockSize s r = (.ok placement, chain, s))
    (machine : Machine σ) :
    (p.withChains id chains).answer os machine id ask =
      (.ok placement, p.withChains id (Function.update chains ask.thread chain), machine) := by
  obtain ⟨a, found, -, rfl⟩ := sized
  obtain ⟨old, some, -⟩ := Option.map_eq_some_iff.1 mine
  have lost : p.guardedSlot? id ask.thread ≠ none :=
    orderly.guardedSlot? (owns_of_slotOf? some).stands found
  obtain ⟨slot, guarded⟩ := Option.ne_none_iff_exists'.1 lost
  obtain ⟨b, there, member, owner⟩ := guardedSlot?_owns orderly.sound guarded
  cases found.symm.trans there
  have located : (p.withChains id chains).threadSlot os machine id ask.thread =
      .some ({ slot with chain := chains slot.owner }, p.withChains id chains, machine) := by
    unfold threadSlot
    rw [guardedSlot?_withChains, guarded]
    rfl
  rw [answer_eq request, serve, located]
  dsimp only
  rw [arena?_withChains found]
  dsimp only
  rw [owner, granted]
  dsimp only
  rw [withChains, modify_modify]
  refine congrArg (fun next => (Except.ok placement, next, machine)) (modify_congr found ?_)
  have slots : (a.slots.map fun slot => { slot with chain := chains slot.owner }).map
      (fun old => if old.address = slot.address then { old with chain } else old) =
        a.slots.map fun old =>
          { old with chain := Function.update chains ask.thread chain old.owner } := by
    rw [List.map_map]
    apply List.map_congr_left
    intro old inside
    rw [Function.comp_apply]
    by_cases same : old.owner = ask.thread
    · have one := orderly.slotOf?_eq ⟨a, found, inside, same⟩
      have two := orderly.slotOf?_eq ⟨a, found, member, owner⟩
      cases one.symm.trans two
      rw [if_pos rfl, same, Function.update_self]
    · rw [if_neg, Function.update_of_ne same]
      intro here
      have equal := (orderly.sound.arenas id a found).eq_of_address inside member here
      exact same (equal ▸ owner)
  exact congrArg (fun slots => { a with slots }) slots

/-- Runs of the chains make up a run of the arena. -/
theorem Orderly.repeats {others : ThreadId → Chain} (orderly : p.Orderly)
    (sized : p.Sized id blockSize)
    (asked : ∀ x ∈ transcript, (∃ c, p.chainOf? id x.1.thread = some c) ∧
      ∃ r, x.1.request? os = some r)
    (runs : ∀ {t c}, p.chainOf? id t = some c →
      Chain.Repeats os blockSize (chains t) (requestsOf os t transcript) (others t)) :
    Repeats os id (p.withChains id chains) transcript (p.withChains id others) := by
  induction transcript generalizing chains with
  | nil =>
    obtain ⟨a, found, -⟩ := sized
    have same : p.withChains id chains = p.withChains id others :=
      orderly.withChains_congr found fun here => (runs here).of_nil
    exact same ▸ .nil _
  | cons x rest ih =>
    obtain ⟨ask, placement⟩ := x
    obtain ⟨⟨⟨c, mine⟩, r, request⟩, asked⟩ := List.forall_mem_cons.1 asked
    have run := runs mine
    rw [requestsOf_cons_self os placement rest request] at run
    cases run with
    | @cons _ chain _ _ _ _ granted later =>
      refine .cons (orderly.answer_again sized mine request granted) (ih asked fun {t c} here => ?_)
      by_cases own : t = ask.thread
      · subst own
        rwa [Function.update_self]
      · rw [Function.update_of_ne own, ← requestsOf_cons_of_ne os placement rest (Ne.symm own)]
        exact runs here

/-- To reset an arena is to reset every chain. -/
theorem Orderly.reset_eq (orderly : p.Orderly) (sized : p.Sized id blockSize) :
    p.reset id = p.withChains id fun t => ((p.chainOf? id t).getD { preferred := 0 }).reset := by
  obtain ⟨a, found, -⟩ := sized
  apply modify_congr found
  have slots : a.slots.map (fun slot => { slot with chain := slot.chain.reset }) =
      a.slots.map fun slot =>
        { slot with chain := ((p.chainOf? id slot.owner).getD { preferred := 0 }).reset } := by
    apply List.map_congr_left
    intro slot member
    rw [orderly.chainOf?_owner found member, Option.getD_some]
  rw [slots]

theorem chainOf?_withChains (p : Pool) (id : Nat) (chains : ThreadId → Chain) (t : ThreadId) :
    (p.withChains id chains).chainOf? id t = (p.chainOf? id t).map fun _ => chains t := by
  let given (slot : Slot) : Slot := { slot with chain := chains slot.owner }
  rw [chainOf?, withChains, slotOf?_modify (h := given) (fun _ => rfl) fun _ => rfl, chainOf?]
  cases here : p.slotOf? id t with
  | none => rfl
  | some slot =>
    obtain ⟨-, -, -, owner⟩ := owns_of_slotOf? here
    simp only [given, Option.map_some, owner]

theorem blocks_eq (p : Pool) (id : Nat) (t : ThreadId) :
    p.blocks id t = (p.chainOf? id t).elim [] fun c => c.blocks.map Block.view := by
  change (p.slotOf? id t).elim _ _ = _
  rw [chainOf?]
  cases p.slotOf? id t <;> rfl

/-- Where chains have counted the same, the report of the arena is the same. -/
theorem Orderly.stats_withChains (orderly : p.Orderly) (found : p.arena? id = some a)
    {field : Stats → Nat} {part : Tally → Nat}
    (reports : ∀ a : State, field a.stats = field (Stats.ofTallies (a.slots.map (·.chain.tally))))
    (adds : ∀ s t, field (Stats.add s t) = field s + part t)
    (same : ∀ {t c}, p.chainOf? id t = some c → part (chains t).tally = part c.tally) :
    field ((p.withChains id chains).stats id) = field (p.stats id) := by
  rw [stats, arena?_withChains found, stats, found, Option.elim_some, Option.elim_some, reports,
    reports, Stats.ofTallies_sum field part adds, Stats.ofTallies_sum field part adds,
    List.map_map, List.map_map, List.map_map]
  congr 2
  apply List.map_congr_left
  intro slot member
  exact same (orderly.chainOf?_owner found member)

end

end Pool

namespace World

variable {σ : Type} {os : Platform σ} {contract : os.Contract} {id : Nat} {p : Pool}

/-- The arena was just added to those in use, or it was just reset. -/
inductive Begins {os : Platform σ} (contract : os.Contract) (id : Nat) : Pool → Prop
  | created {w : World σ} (blockSize : PowerOfTwo) (hugePages numaAware : Bool) :
      w.Reached contract → w.pool.arenas.length = id →
      Begins contract id (w.pool.add blockSize hugePages numaAware)
  | reset {w : World σ} :
      w.Reached contract → w.pool.Live id → Begins contract id (w.pool.reset id)

theorem Begins.spec (begins : Begins contract id p) :
    p.Orderly ∧ (∃ blockSize, p.Sized id blockSize) ∧
      ∀ {t c}, p.chainOf? id t = some c → c.Begins := by
  cases begins with
  | @created w blockSize hugePages numaAware reached last =>
    subst last
    have orderly := reached.tracked.orderly.add blockSize hugePages numaAware
    have there : (w.pool.add blockSize hugePages numaAware).arena? w.pool.arenas.length = some
        { generation := w.pool.nextGeneration, blockSize, mapper := { hugePages, numaAware } } :=
      List.getElem?_concat_length
    refine ⟨orderly, ⟨blockSize, _, there, rfl, rfl⟩, fun {t c} here => ?_⟩
    rw [Pool.chainOf?, Pool.slotOf?, there] at here
    cases here
  | @reset w reached live =>
    have orderly := reached.tracked.orderly
    obtain ⟨a, found, active⟩ := live
    have sized : w.pool.Sized id a.blockSize := ⟨a, found, active, rfl⟩
    refine ⟨orderly.reset id, ⟨a.blockSize, _, Pool.arena?_modify_self found, active, rfl⟩,
      fun {t c} here => ?_⟩
    rw [orderly.reset_eq sized, Pool.chainOf?_withChains] at here
    obtain ⟨old, -, rfl⟩ := Option.map_eq_some_iff.1 here
    exact .reset _

/-- What an arena has served since it was added or reset, it serves again after the next reset: each
thread has its own requests served again by its own chain. -/
theorem Begins.replay {transcript : List (Pool.Ask × Placement)} {last : Pool}
    (begins : Begins contract id p) (yields : Pool.Yields os id p transcript last) :
    ∃ again, Pool.Repeats os id (last.reset id) transcript again ∧
      (∀ thread, again.blocks id thread = last.blocks id thread) ∧
      (again.stats id).bytesUsed = (last.stats id).bytesUsed ∧
      (again.stats id).wastedBytes = (last.stats id).wastedBytes ∧
      (again.stats id).bytesReserved = (last.stats id).bytesReserved := by
  obtain ⟨orderly, ⟨blockSize, sized⟩, fresh⟩ := begins.spec
  obtain ⟨tidy, lasting, -, asked, runs⟩ := yields.project orderly sized
  have replays : ∀ t, ∃ d : Chain, ∀ c, last.chainOf? id t = some c →
      Chain.Repeats os blockSize c.reset (Pool.requestsOf os t transcript) d ∧
        d.blocks = c.blocks ∧ d.tally.bytesUsed = c.tally.bytesUsed ∧
        d.tally.wastedBytes = c.tally.wastedBytes := by
    intro t
    cases here : last.chainOf? id t with
    -- This thread has asked for nothing.
    | none => exact ⟨{ preferred := 0 }, nofun⟩
    | some c =>
      obtain ⟨start, origin, run⟩ := runs here
      have starts : start.Begins := by
        rcases origin with old | ⟨-, preferred, rfl⟩
        · exact fresh old
        · exact .created preferred
      obtain ⟨d, repeats, blocks, -, used, wasted⟩ := starts.replay run
      exact ⟨d, fun _ same => Option.some.inj same ▸ ⟨repeats, blocks, used, wasted⟩⟩
  choose chains replays using replays
  have ⟨a, found, _⟩ := lasting
  refine ⟨last.withChains id chains, ?_, fun thread => ?_, ?_, ?_, ?_⟩
  · rw [tidy.reset_eq lasting]
    refine tidy.repeats lasting asked fun {t c} here => ?_
    rw [here, Option.getD_some]
    exact (replays t c here).1
  · rw [Pool.blocks_eq, Pool.blocks_eq, Pool.chainOf?_withChains]
    cases here : last.chainOf? id thread with
    | none => rfl
    | some c => exact congrArg (List.map Block.view) (replays thread c here).2.1
  · exact tidy.stats_withChains found (fun _ => rfl) (fun _ _ => rfl)
      fun {t c} here => (replays t c here).2.2.1
  · exact tidy.stats_withChains found (fun _ => rfl) (fun _ _ => rfl)
      fun {t c} here => (replays t c here).2.2.2
  · rw [Pool.stats, Pool.arena?_withChains found, Pool.stats, found]
    rfl

end World

/-- A chain or an arena that was just made or reset, whatever blocks it has by then, serves some
requests. If it is then reset and asked for the same again, it serves each at the same address and
from the same node as before, without any use of the machine, and has as much in use and wasted in
the end. -/
theorem reset_repeats {σ : Type} (os : Platform σ) :
    (∀ {blockSize c transcript last}, Chain.Begins c →
      Chain.Yields os blockSize c transcript last →
      ∃ again, Chain.Repeats os blockSize last.reset transcript again ∧
        again.blocks = last.blocks ∧ again.tally.bytesUsed = last.tally.bytesUsed ∧
        again.tally.wastedBytes = last.tally.wastedBytes) ∧
    ∀ {contract : os.Contract} {id p transcript last}, World.Begins contract id p →
      Pool.Yields os id p transcript last →
      ∃ again, Pool.Repeats os id (last.reset id) transcript again ∧
        (∀ thread, again.blocks id thread = last.blocks id thread) ∧
        (again.stats id).bytesUsed = (last.stats id).bytesUsed ∧
        (again.stats id).wastedBytes = (last.stats id).wastedBytes ∧
        (again.stats id).bytesReserved = (last.stats id).bytesReserved := by
  refine ⟨fun begins yields => ?_, fun begins yields => begins.replay yields⟩
  obtain ⟨again, repeats, blocks, -, used, wasted⟩ := begins.replay yields
  exact ⟨again, repeats, blocks, used, wasted⟩

/-- On two nodes, an arena with a custom-sized block left over from before a reset serves two
threads, and maps a block on each node for them; a chain of its own does likewise. -/
theorem reset_repeats_two_threads :
    let settings : Simulated.Settings := { topology := Topology.singleNode.describe ⟨1, "1", none⟩ }
    let os := Simulated.platform settings
    (∃ transcript last, Chain.Yields os ⟨12, by decide⟩ { preferred := 0 } transcript last ∧
      transcript.map (·.2) = [⟨65536, 0⟩] ∧
      ∃ again, Chain.Repeats os ⟨12, by decide⟩ last.reset transcript again) ∧
    ∃ p transcript last, World.Begins (Simulated.contract settings (by decide) (by decide)) 0 p ∧
      Pool.Yields os 0 p transcript last ∧
      transcript.map (·.2) = [⟨65536, 1⟩, ⟨81920, 0⟩, ⟨86016, 1⟩] ∧
      ∃ again, Pool.Repeats os 0 (last.reset 0) transcript again := by
  let settings : Simulated.Settings := { topology := Topology.singleNode.describe ⟨1, "1", none⟩ }
  let os := Simulated.platform settings
  let machine := Simulated.machine {}
  refine ⟨?_, ?_⟩
  · let r : Request := ⟨100, 104, wordAlignment, none⟩
    let s : Supply Simulated.State := ⟨⟨false, false, 0, 0, 0⟩, machine⟩
    have yields : Chain.Yields os ⟨12, by decide⟩ { preferred := 0 } [(r, ⟨65536, 0⟩)] _ :=
      .step _ s r (by decide +kernel) (.nil _)
    obtain ⟨again, repeats, -⟩ := (reset_repeats os).1 (.created 0) yields
    exact ⟨_, _, yields, rfl, again, repeats⟩
  · let new : World Simulated.State := { machine }
    let bare := { new with pool := new.pool.add ⟨12, by decide⟩ false false }
    let used := (bare.allocate os 0 0 9000 wordAlignment (some 1)).2
    have live (w : World Simulated.State) (active : (w.pool.arena? 0).any (·.active) = true) :
        w.pool.Live 0 := (Option.any_eq_true _ _).1 active
    have reached : used.Reached (Simulated.contract settings (by decide) (by decide)) :=
      .allocate 9000 wordAlignment (some 1)
        (.add _ false false (.start (Simulated.machine_sound {}))) (live bare rfl) (by decide)
    have begins : World.Begins (Simulated.contract settings (by decide) (by decide)) 0
        (used.pool.reset 0) := .reset reached (live used (by decide +kernel))
    let large : Pool.Ask := ⟨0, 9000, wordAlignment, some 1⟩
    let small : Pool.Ask := ⟨1, 100, wordAlignment, none⟩
    let first := (used.pool.reset 0).answer os used.machine 0 large
    let second := first.2.1.answer os first.2.2 0 small
    have fits : first.1 = .ok ⟨65536, 1⟩ := by decide +kernel
    have mapped : second.1 = .ok ⟨81920, 0⟩ := by decide +kernel
    have mapped_too : (second.2.1.answer os second.2.2 0 large).1 = .ok ⟨86016, 1⟩ := by
      decide +kernel
    -- From here on only the three answers count: the unifier must not run the arena again.
    clear_value used
    have yields : Pool.Yields os 0 (used.pool.reset 0)
        [(large, ⟨65536, 1⟩), (small, ⟨81920, 0⟩), (large, ⟨86016, 1⟩)] _ :=
      .step _ used.machine large fits (.step first.2.1 first.2.2 small mapped
        (.step second.2.1 second.2.2 large mapped_too (.nil _)))
    obtain ⟨again, repeats, -⟩ := (reset_repeats os).2 begins yields
    exact ⟨_, _, _, begins, yields, rfl, again, repeats⟩

end NumaHeap.Arena
