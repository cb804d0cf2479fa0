import NumaHeap.Proofs.Arena.Ownership
import NumaHeap.Proofs.Arena.Rebase
import NumaHeap.Proofs.Arena.Terms

/-!
Schedules of an arena. The addresses that a thread is given depend on what all threads ask for, since
they share the platform. Seen from its own blocks they do not: which block serves a request, how far
into that block, and how long the blocks are, follows from what the thread has asked for itself, and
from the resets.
-/

namespace NumaHeap.Arena

variable {σ : Type}

/-- Where a thread was served: from which of its blocks, how far into it, and on which node. -/
structure Spot where
  index : Nat
  offset : Nat
  node : Nat
deriving DecidableEq

/-- What happens to an arena. -/
inductive Event where
  /-- A thread asks for memory. If it gets a chain for that, it runs on the node `seen` by then. -/
  | ask (ask : Pool.Ask) (seen : Nat)
  | reset
  | release (thread : ThreadId)
  | exit (thread : ThreadId)

/-- The event is one of the thread, or one of the whole arena. -/
def Event.concerns (thread : ThreadId) : Event → Bool
  | .ask request _ => request.thread = thread
  | reset => true
  | release owner => owner = thread
  | exit owner => owner = thread

/-- What a thread was told, seen from its own blocks. There is no spot for an address outside of
them. -/
structure Reply where
  thread : ThreadId
  answer : Except AllocError (Option Spot)
deriving DecidableEq

/-- Where the current block of the node serves a request, told how far into the block. -/
def Chain.spot? (c : Chain) (placement : Placement) : Option Spot :=
  (c.current placement.node).map (⟨·, placement.address, placement.node⟩)

/-- The chain that a thread gets when it runs on a node. -/
def Terms.chain (terms : Terms) (seen : Nat) : Chain :=
  { preferred := if terms.numaAware then seen else 0 }

namespace Pool

/-- Where an address lies in the blocks of a thread. -/
def spot? (p : Pool) (id : Nat) (thread : ThreadId) (placement : Placement) : Option Spot := do
  let index ← (p.blocks id thread).findIdx? fun view =>
    view.start ≤ placement.address && placement.address < view.start + view.size
  let view ← (p.blocks id thread)[index]?
  return ⟨index, placement.address - view.start, placement.node⟩

/-- The chain of a thread, seen from its blocks. -/
def shape? (p : Pool) (id : Nat) (thread : ThreadId) : Option Chain :=
  (p.chainOf? id thread).map Chain.rebase

/-- The machine has all regions of the arenas mapped, and huge pages are available or not. -/
structure Supports {os : Platform σ} (contract : os.Contract) (available : Bool) (p : Pool)
    (machine : Machine σ) : Prop where
  possible : contract.Possible machine.system
  mapped : ∀ region ∈ p.regions, contract.Mapped machine.system region.extent
  hugePages : os.hugePagesAvailable machine.system = available

/-- A request is answered and no mapping is refused for it. -/
structure Answered {os : Platform σ} (contract : os.Contract) (id : Nat) (available : Bool)
    (ask : Ask) (seen : Nat) (p : Pool) (machine : Machine (Watched σ))
    (answer : Except AllocError Placement) (next : Pool) (later : Machine (Watched σ)) : Prop where
  supports : p.Supports contract.watched available machine
  alignment : ask.alignment.value ≤ os.pageSize.value
  seen : p.chainOf? id ask.thread = none → next.chainOf? id ask.thread ≠ none →
    machine.currentNode os.watched ask.thread = seen
  served : p.answer os.watched machine id ask = (answer, next, later)
  granted : later.system.refusals = machine.system.refusals

/-- A run of an arena, on whatever machine each event finds, in which every mapping succeeds. -/
inductive Plays {os : Platform σ} (contract : os.Contract) (id : Nat) (available : Bool) :
    Pool → List Event → List Reply → Pool → Prop
  | nil (p : Pool) : Plays contract id available p [] [] p
  | ask {p next last : Pool} {ask : Ask} {seen : Nat} {machine later : Machine (Watched σ)}
      {answer : Except AllocError Placement} {rest : List Event} {replies : List Reply} :
      Answered contract id available ask seen p machine answer next later →
      Plays contract id available next rest replies last →
      Plays contract id available p (.ask ask seen :: rest)
        (⟨ask.thread, answer.map (next.spot? id ask.thread)⟩ :: replies) last
  | reset {p last : Pool} {rest : List Event} {replies : List Reply} :
      Plays contract id available (p.reset id) rest replies last →
      Plays contract id available p (.reset :: rest) replies last
  | release {p next last : Pool} {thread : ThreadId} {machine later : Machine (Watched σ)}
      {rest : List Event} {replies : List Reply} :
      p.releaseThread os.watched machine id thread = (next, later) →
      Plays contract id available next rest replies last →
      Plays contract id available p (.release thread :: rest) replies last
  | exit {p next last : Pool} {thread : ThreadId} {machine later : Machine (Watched σ)}
      {rest : List Event} {replies : List Reply} :
      p.exitThread os.watched machine thread = (next, later) →
      Plays contract id available next rest replies last →
      Plays contract id available p (.exit thread :: rest) replies last

/-- The arena is in use on some terms, and the regions of all arenas are in custody. -/
structure Upheld {os : Platform σ} (contract : os.Contract) (id : Nat) (terms : Terms) (p : Pool) :
    Prop where
  orderly : p.Orderly
  terms : p.terms? id = some (terms, true)
  custody : ∃ system, os.Custody contract system p.regions

variable {os : Platform σ} {contract : os.Contract} {p q next last : Pool} {id : Nat} {terms : Terms}
  {available : Bool} {ask : Ask} {seen : Nat} {machine later : Machine (Watched σ)}
  {answer : Except AllocError Placement} {thread t : ThreadId} {r : Request} {c : Chain}

theorem request?_spec (request : ask.request? os = some r) :
    0 < r.rounded ∧ r.alignment = ask.alignment := by
  unfold Ask.request? at request
  split at request
  · cases request
  · obtain ⟨rounded, enough, rfl⟩ := Option.map_eq_some_iff.1 request
    obtain ⟨long, positive⟩ := Size.le_arenaRounded enough
    exact ⟨Nat.lt_of_lt_of_le positive long, rfl⟩

theorem chainOf?_owns (mine : p.chainOf? id thread = some c) :
    ∃ slot, p.Owns id thread slot ∧ slot.chain = c := by
  obtain ⟨slot, found, rfl⟩ := Option.map_eq_some_iff.1 mine
  exact ⟨slot, owns_of_slotOf? found, rfl⟩

theorem Owns.regions_nodup {slot : Slot} (owns : p.Owns id thread slot) (once : p.regions.Nodup) :
    slot.chain.regions.Nodup := by
  obtain ⟨a, found, member, -⟩ := owns
  have within : a.regions.Nodup := (List.nodup_flatMap.1 once).1 a (List.mem_of_getElem? found)
  exact (List.nodup_flatMap.1 within).1 slot member

/-- An address is found in the block that holds it, since no other block does. -/
theorem spot?_eq {placement : Placement} {index : Nat} {block : Block} {system : σ}
    {contract : os.Contract} (custody : os.Custody contract system p.regions)
    (mine : p.chainOf? id thread = some c) (found : c.blocks[index]? = some block)
    (holds : block.region.extent.Holds placement.address) :
    p.spot? id thread placement =
      some ⟨index, placement.address - block.region.start, placement.node⟩ := by
  obtain ⟨slot, owns, rfl⟩ := chainOf?_owns mine
  have views : p.blocks id thread = slot.chain.blocks.map Block.view := by
    rw [blocks_eq, mine]
    rfl
  have inside := (List.getElem?_eq_some_iff.1 found).1
  have located : (slot.chain.blocks.map Block.view).findIdx? (fun view =>
      view.start ≤ placement.address && placement.address < view.start + view.size) =
        some index := by
    rw [List.findIdx?_map, List.findIdx?_eq_some_iff_getElem]
    have here : slot.chain.blocks[index] = block := (List.getElem?_eq_some_iff.1 found).2
    refine ⟨inside, ?_, fun other earlier also => ?_⟩
    · rw [Function.comp_apply, here, Bool.and_eq_true, decide_eq_true_iff, decide_eq_true_iff]
      exact holds
    · rw [Function.comp_apply, Bool.and_eq_true, decide_eq_true_iff, decide_eq_true_iff] at also
      have region (place : Nat) (fits : place < slot.chain.blocks.length) :
          slot.chain.regions[place]? = some slot.chain.blocks[place].region := by
        rw [Chain.regions, List.getElem?_map, List.getElem?_eq_getElem fits, Option.map_some]
      have first := region other (Nat.lt_trans earlier inside)
      have second := region index inside
      have same := custody.eq_of_holds (owns.region_mem (List.mem_of_getElem? first))
        (owns.region_mem (List.mem_of_getElem? second)) also (here ▸ holds)
      rw [same, ← second] at first
      have length : slot.chain.regions.length = slot.chain.blocks.length := List.length_map ..
      have once := owns.regions_nodup custody.nodup
      have place := (List.getElem?_inj (length ▸ Nat.lt_trans earlier inside) once).1 first
      exact Nat.ne_of_lt earlier place
  simp only [spot?, views, located, bind, Option.bind_some, List.getElem?_map, found,
    Option.map_some, pure]
  rfl

/-- Seen from its block, what a chain serves is where the arena finds it. -/
theorem spot?_offset {placement : Placement} {system : σ} {s supply : Supply σ} {start : Chain}
    {contract : os.Contract} {blockSize : PowerOfTwo}
    (custody : os.Custody contract system p.regions) (mine : p.chainOf? id thread = some c)
    (sound : start.Sound) (positive : 0 < r.rounded)
    (served : start.allocate os blockSize s r = (.ok placement, c, supply)) :
    ∃ spot, p.spot? id thread placement = some spot ∧
      c.rebase.spot? (c.offset placement) = some spot := by
  obtain ⟨index, block, current, found, holds⟩ := Chain.allocate_holds sound served positive
  refine ⟨_, spot?_eq custody mine found holds, ?_⟩
  have also : c.rebase.current placement.node = some index := current
  simp only [Chain.spot?, Chain.offset, also, current, Option.map_some, Option.elim_some,
    Chain.startOf, found]

/-- A request is answered as the shape of the chain answers it, and no other shape changes. -/
theorem Upheld.asked (upheld : p.Upheld contract.watched id terms)
    (request : ask.request? os.watched = some r)
    (answered : Answered contract id available ask seen p machine answer next later) :
    next.Upheld contract.watched id terms ∧
      (∀ t, t ≠ ask.thread → next.shape? id t = p.shape? id t) ∧
      (∀ placement, answer = .ok placement → (next.spot? id ask.thread placement).isSome) ∧
      ∃ reply shape state,
        ((p.shape? id ask.thread).getD (terms.chain seen)).allocate (os.anywhere available)
          terms.blockSize (.anywhere terms.hugePages) r = (reply, shape, state) ∧
        next.shape? id ask.thread = some shape ∧
        answer.map (next.spot? id ask.thread) = reply.map shape.spot? := by
  obtain ⟨system, custody⟩ := upheld.custody
  obtain ⟨a, found, agreed⟩ := Option.map_eq_some_iff.1 upheld.terms
  obtain ⟨rfl, active⟩ := Prod.mk.inj agreed
  obtain ⟨supports, small, running, served, granted⟩ := answered
  obtain ⟨new, rounded, serves, -⟩ := allocate_spec upheld.orderly.sound served
  have held := (Platform.Trades.of_gains serves.grows.gains serves.regions).custody
    (custody.of_system supports.possible supports.mapped)
  obtain ⟨orderly, start, chain, supply, origin, sound, allocated, rfl,
    ⟨b, there, on, size, mapper⟩, chains⟩ := upheld.orderly.asked found active request served
  obtain ⟨positive, alignment⟩ := request?_spec request
  have mine : next.chainOf? id ask.thread = some chain := (chains _).trans (if_pos rfl)
  have shape : (p.shape? id ask.thread).getD
      (Terms.chain ⟨a.blockSize, a.mapper.hugePages, a.mapper.numaAware⟩ seen) = start.rebase := by
    rcases origin with old | ⟨none, rfl⟩
    · rw [shape?, old, Option.map_some, Option.getD_some]
    · rw [running none (mine ▸ nofun), shape?, none, Option.map_none, Option.getD_none]
      rfl
  have placed : ∀ region ∈ chain.regions, Block.Placed os.pageSize region := by
    obtain ⟨slot, owns, rfl⟩ := chainOf?_owns mine
    intro region member
    exact ⟨held.aligned region (owns.region_mem member), held.within region (owns.region_mem member)⟩
  obtain ⟨state, rebased⟩ := Chain.allocate_rebase sound allocated granted supports.hugePages
    (alignment ▸ small) placed
  refine ⟨⟨orderly, ?_, _, held⟩, fun t other => ?_, ?_,
    answer.map chain.offset, chain.rebase, state, ?_, ?_, ?_⟩
  · have wishes := Chain.allocate_wishes os.watched a.blockSize start ⟨a.mapper, machine⟩ r
    rw [allocated] at wishes
    rw [terms?, there, Option.map_some, ← agreed]
    exact congrArg some (State.terms_congr size (mapper ▸ wishes) (on.trans active.symm))
  · rw [shape?, chains, if_neg other, shape?]
  · rintro placement rfl
    obtain ⟨spot, here, -⟩ := spot?_offset held mine sound positive allocated
    rw [here, Option.isSome_some]
  · rw [shape]
    exact rebased
  · rw [shape?, mine, Option.map_some]
  · cases answer with
    | error cause => rfl
    | ok placement =>
      obtain ⟨spot, here, also⟩ := spot?_offset held mine sound positive allocated
      simp only [Except.map, here, also]

/-- Two arenas on the same terms answer a request alike where the shapes of the chain agree. -/
theorem Upheld.agree {machine' later' : Machine (Watched σ)} {next' : Pool}
    {answer' : Except AllocError Placement} {other : Nat}
    (upheld : p.Upheld contract.watched id terms) (also : q.Upheld contract.watched other terms)
    (same : p.shape? id ask.thread = q.shape? other ask.thread)
    (answered : Answered contract id available ask seen p machine answer next later)
    (again : Answered contract other available ask seen q machine' answer' next' later') :
    answer.map (next.spot? id ask.thread) = answer'.map (next'.spot? other ask.thread) ∧
      next.shape? id ask.thread = next'.shape? other ask.thread := by
  cases request : ask.request? os.watched with
  | none =>
    obtain ⟨error, denied⟩ := Ask.denied request
    cases (denied p machine id).symm.trans answered.served
    cases (denied q machine' other).symm.trans again.served
    exact ⟨rfl, same⟩
  | some r =>
    obtain ⟨-, -, -, reply, shape, state, one, first, here⟩ := upheld.asked request answered
    obtain ⟨-, -, -, reply', shape', state', two, second, there⟩ := also.asked request again
    rw [same] at one
    cases one.symm.trans two
    exact ⟨here.trans there.symm, first.trans second.symm⟩

/-- Whatever an arena answers, it stays in use on its terms, and changes no other chain. -/
theorem Upheld.answered (upheld : p.Upheld contract.watched id terms)
    (answered : Answered contract id available ask seen p machine answer next later) :
    next.Upheld contract.watched id terms ∧
      (∀ t, t ≠ ask.thread → next.shape? id t = p.shape? id t) ∧
      ∀ placement, answer = .ok placement → (next.spot? id ask.thread placement).isSome := by
  cases request : ask.request? os.watched with
  | none =>
    obtain ⟨error, denied⟩ := Ask.denied request
    cases (denied p machine id).symm.trans answered.served
    exact ⟨upheld, fun _ _ => rfl, nofun⟩
  | some r =>
    obtain ⟨good, others, found, -⟩ := upheld.asked request answered
    exact ⟨good, others, found⟩

section

variable {os : Platform σ} {contract : os.Contract} {machine later : Machine σ}

theorem Upheld.reset (upheld : p.Upheld contract id terms) :
    (p.reset id).Upheld contract id terms ∧
      ∀ t, (p.reset id).shape? id t = (p.shape? id t).map Chain.reset := by
  obtain ⟨system, custody⟩ := upheld.custody
  have same := (reset_spec upheld.orderly.sound id).2
  refine ⟨⟨upheld.orderly.reset id, (terms?_reset ..).trans upheld.terms, system,
    custody.perm same.symm⟩, fun t => ?_⟩
  rw [shape?, chainOf?_reset, Option.map_map, shape?, Option.map_map]
  exact congrArg (Option.map · _) (funext fun c => (Chain.reset_rebase c).symm)

theorem Upheld.dropGuardsWhere {test : Guard → Bool} (upheld : p.Upheld contract id terms)
    (uniform : ∀ g k : Guard, g.generation = k.generation → test g = test k)
    (dropped : p.dropGuardsWhere os machine thread test = (next, later)) :
    next.Upheld contract id terms where
  orderly := upheld.orderly.dropGuardsWhere uniform dropped
  terms := by
    have same : (p.dropGuardsWhere os machine thread test).1.terms? id = p.terms? id :=
      terms?_dropGuardsWhere os machine thread test id
    rw [dropped] at same
    exact same.trans upheld.terms
  custody := by
    obtain ⟨system, custody⟩ := upheld.custody
    obtain ⟨removed, same, -⟩ :=
      (dropGuardsWhere_spec upheld.orderly.sound uniform dropped).1.returned
    exact ⟨system, (custody.perm same).sublist (List.sublist_append_right ..)⟩

theorem Upheld.releaseThread (upheld : p.Upheld contract id terms)
    (released : p.releaseThread os machine id thread = (next, later)) :
    next.Upheld contract id terms ∧
      ∀ t, next.shape? id t = if t = thread then none else p.shape? id t := by
  obtain ⟨a, found, -⟩ := Option.map_eq_some_iff.1 upheld.terms
  refine ⟨?_, fun t => ?_⟩
  · rw [upheld.orderly.releaseThread_eq found] at released
    exact upheld.dropGuardsWhere (fun g k same => congrArg (· == a.generation) same) released
  · rw [shape?, upheld.orderly.chainOf?_releaseThread found released, shape?]
    split <;> rfl

theorem Upheld.exitThread (upheld : p.Upheld contract id terms)
    (exited : p.exitThread os machine thread = (next, later)) :
    next.Upheld contract id terms ∧
      ∀ t, next.shape? id t = if t = thread then none else p.shape? id t := by
  refine ⟨upheld.dropGuardsWhere (fun _ _ _ => rfl) exited, fun t => ?_⟩
  rw [shape?, upheld.orderly.chainOf?_exitThread exited, shape?]
  split <;> rfl

end

variable {events rest : List Event} {replies own : List Reply}

theorem Plays.step {told : Except AllocError (Option Spot)}
    (answered : Answered contract id available ask seen p machine answer next later)
    (here : answer.map (next.spot? id ask.thread) = told)
    (plays : Plays contract id available next rest replies last) :
    Plays contract id available p (.ask ask seen :: rest) (⟨ask.thread, told⟩ :: replies) last :=
  here ▸ .ask answered plays

/-- What a thread is told in a run, it is told in every run that has the same events for it. -/
theorem Plays.project {other : Nat} (plays : Plays contract id available p events replies last)
    (upheld : p.Upheld contract.watched id terms) (also : q.Upheld contract.watched other terms)
    (same : p.shape? id thread = q.shape? other thread) {only : Pool}
    (alone : Plays contract other available q (events.filter (·.concerns thread)) own only) :
    replies.filter (·.thread = thread) = own ∧ last.shape? id thread = only.shape? other thread ∧
      ∀ reply ∈ replies, ∀ spot?, reply.answer = .ok spot? → spot?.isSome := by
  induction plays generalizing q own with
  | nil p =>
    cases alone
    exact ⟨rfl, same, nofun⟩
  | @ask p next last ask seen machine later answer rest replies answered _ ih =>
    obtain ⟨good, others, found⟩ := upheld.answered answered
    have told : ∀ spot?, answer.map (next.spot? id ask.thread) = .ok spot? → spot?.isSome := by
      intro spot? equal
      cases answer with
      | error cause => cases equal
      | ok placement =>
        cases equal
        exact found placement rfl
    by_cases mine : ask.thread = thread
    · subst mine
      rw [List.filter_cons_of_pos (by simp [Event.concerns])] at alone
      cases alone with
      | ask again alone =>
        obtain ⟨agree, shapes⟩ := upheld.agree also same answered again
        obtain ⟨rest, ends, spots⟩ := ih good (also.answered again).1 shapes alone
        refine ⟨?_, ends, List.forall_mem_cons.2 ⟨told, spots⟩⟩
        rw [List.filter_cons_of_pos (by simp), rest, agree]
    · rw [List.filter_cons_of_neg (by simpa [Event.concerns] using mine)] at alone
      obtain ⟨rest, ends, spots⟩ :=
        ih good also ((others thread (Ne.symm mine)).trans same) alone
      refine ⟨?_, ends, List.forall_mem_cons.2 ⟨told, spots⟩⟩
      rw [List.filter_cons_of_neg (by simpa using mine), rest]
  | @reset p last rest replies _ ih =>
    rw [List.filter_cons_of_pos rfl] at alone
    cases alone with
    | reset alone =>
      obtain ⟨good, shapes⟩ := upheld.reset
      obtain ⟨also, others⟩ := also.reset
      exact ih good also (by rw [shapes, others, same]) alone
  | @release p next last owner machine later rest replies released _ ih =>
    obtain ⟨good, shapes⟩ := upheld.releaseThread released
    by_cases mine : owner = thread
    · subst mine
      rw [List.filter_cons_of_pos (by simp [Event.concerns])] at alone
      cases alone with
      | release again alone =>
        obtain ⟨also, others⟩ := also.releaseThread again
        exact ih good also (by rw [shapes, others, if_pos rfl, if_pos rfl]) alone
    · rw [List.filter_cons_of_neg (by simpa [Event.concerns] using mine)] at alone
      exact ih good also (by rw [shapes, if_neg (Ne.symm mine), same]) alone
  | @exit p next last owner machine later rest replies exited _ ih =>
    obtain ⟨good, shapes⟩ := upheld.exitThread exited
    by_cases mine : owner = thread
    · subst mine
      rw [List.filter_cons_of_pos (by simp [Event.concerns])] at alone
      cases alone with
      | exit again alone =>
        obtain ⟨also, others⟩ := also.exitThread again
        exact ih good also (by rw [shapes, others, if_pos rfl, if_pos rfl]) alone
    · rw [List.filter_cons_of_neg (by simpa [Event.concerns] using mine)] at alone
      exact ih good also (by rw [shapes, if_neg (Ne.symm mine), same]) alone

/-- The lengths of the blocks are part of the shape. -/
theorem blocks_size (p : Pool) (id : Nat) (thread : ThreadId) :
    (p.blocks id thread).map (·.size) =
      (p.shape? id thread).elim [] fun shape => shape.blocks.map (·.region.length) := by
  rw [blocks_eq, shape?]
  cases p.chainOf? id thread with
  | none => rfl
  | some c =>
    simp only [Option.map_some, Option.elim_some, Chain.rebase, List.map_map]
    rfl

end Pool

namespace World

variable {os : Platform σ} {contract : os.Contract} {id : Nat} {terms : Terms} {p : Pool}

/-- The arena was just added to those of a program. -/
inductive Adds {os : Platform σ} (contract : os.Contract) (id : Nat) (terms : Terms) : Pool → Prop
  | intro {w : World σ} : w.Reached contract → w.pool.arenas.length = id →
      Adds contract id terms (w.pool.add terms.blockSize terms.hugePages terms.numaAware)

/-- An arena is in use from when it is added, and has no chain then. -/
theorem Adds.upheld (adds : Adds contract id terms p) :
    p.Upheld contract id terms ∧ ∀ t, p.shape? id t = none := by
  obtain ⟨reached, rfl⟩ := adds
  next w =>
  have tracked := reached.tracked
  have there : (w.pool.add terms.blockSize terms.hugePages terms.numaAware).arena?
      w.pool.arenas.length = some
        { generation := w.pool.nextGeneration, blockSize := terms.blockSize,
          mapper := { hugePages := terms.hugePages, numaAware := terms.numaAware } } :=
    List.getElem?_concat_length
  have same := (Pool.add_spec tracked.orderly.sound terms.blockSize terms.hugePages
    terms.numaAware).2
  refine ⟨⟨tracked.orderly.add .., ?_, _, same ▸ tracked.custody⟩, fun t => ?_⟩
  · rw [Pool.terms?, there]
    rfl
  · rw [Pool.shape?, Pool.chainOf?, Pool.slotOf?, there]
    rfl

end World

/-- In an arena where every mapping succeeds, a thread is told the same as if it had the arena for
itself, but for the resets: the same block of its own, the same offset in that block and the same
node for every request, or the same error; and its blocks are as long. What others ask for, release
or leave behind when they exit has no part in it. -/
theorem schedule_independent {os : Platform σ} {contract : os.Contract} {terms : Terms}
    {available : Bool} {id other : Nat} {p q last only : Pool} {events : List Event}
    {replies own : List Reply} (thread : ThreadId)
    (added : World.Adds contract.watched id terms p)
    (plays : Pool.Plays contract id available p events replies last)
    (also : World.Adds contract.watched other terms q)
    (alone : Pool.Plays contract other available q (events.filter (·.concerns thread)) own only) :
    replies.filter (·.thread = thread) = own ∧
      (last.blocks id thread).map (·.size) = (only.blocks other thread).map (·.size) ∧
      ∀ reply ∈ replies, ∀ spot?, reply.answer = .ok spot? → spot?.isSome := by
  obtain ⟨upheld, none⟩ := added.upheld
  obtain ⟨good, empty⟩ := also.upheld
  have same : p.shape? id thread = q.shape? other thread := (none thread).trans (empty thread).symm
  obtain ⟨told, shapes, spots⟩ := plays.project upheld good same alone
  refine ⟨told, ?_, spots⟩
  rw [Pool.blocks_size, Pool.blocks_size, shapes]

/-- Two threads share an arena with huge pages on two nodes, which is reset between their requests.
The second thread then leaves, and the first is told all the same. -/
theorem schedule_independent_two_threads :
    let settings : Simulated.Settings := { topology := Topology.singleNode.describe ⟨1, "1", none⟩ }
    let contract := Simulated.contract settings (by decide) (by decide)
    ∃ p events replies last only own,
      World.Adds contract.watched 0 ⟨⟨12, by decide⟩, true, true⟩ p ∧
      Pool.Plays contract 0 true p events replies last ∧
      Pool.Plays contract 0 true p (events.filter (·.concerns 0)) own only ∧
      replies.map (·.thread) = [1, 0, 1, 0, 0] ∧
      own = [⟨0, .ok (some ⟨0, 0, 0⟩)⟩, ⟨0, .ok (some ⟨0, 0, 0⟩)⟩, ⟨0, .ok (some ⟨0, 4096, 0⟩)⟩] ∧
      replies.filter (·.thread = 0) = own := by
  let settings : Simulated.Settings := { topology := Topology.singleNode.describe ⟨1, "1", none⟩ }
  let os := Simulated.platform settings
  let contract := Simulated.contract settings (by decide) (by decide)
  let machine : Machine (Watched Simulated.State) := ⟨⟨{ switches := {} }, 0⟩, .zeros⟩
  let new : World (Watched Simulated.State) := { machine }
  let p := new.pool.add ⟨12, by decide⟩ true true
  have adds : World.Adds contract.watched 0 ⟨⟨12, by decide⟩, true, true⟩ p :=
    .intro (w := new) (.start (Simulated.machine_sound {})) rfl
  have answered (p : Pool) (machine : Machine (Watched Simulated.State)) (ask : Pool.Ask)
      (result : Except AllocError Placement × Pool × Machine (Watched Simulated.State))
      (served : p.answer os.watched machine 0 ask = result)
      (good : (0 < machine.system.system.cursor ∧
          (∀ e ∈ machine.system.system.extents, e.stop ≤ machine.system.system.cursor) ∧
          machine.system.system.extents.Nodup) ∧
        (∀ region ∈ p.regions, region.extent ∈ machine.system.system.extents) ∧
        machine.system.system.switches.hugeAvailable = true ∧
        ask.alignment.value ≤ settings.pageSize.value ∧
        machine.currentNode os.watched ask.thread = 0 ∧
        result.2.2.system.refusals = machine.system.refusals) :
      Pool.Answered contract 0 true ask 0 p machine result.1 result.2.1 result.2.2 := by
    obtain ⟨sound, mapped, available, alignment, running, granted⟩ := good
    exact ⟨⟨⟨sound.1, sound.2.1, sound.2.2⟩, mapped, available⟩, alignment, fun _ _ => running,
      served, granted⟩
  let small : Pool.Ask := ⟨1, 100, wordAlignment, none⟩
  let large : Pool.Ask := ⟨0, 70000, wordAlignment, none⟩
  let word : Pool.Ask := ⟨0, 8, wordAlignment, none⟩
  let page : Pool.Ask := ⟨0, 100, ⟨12, by decide⟩, none⟩
  let a := p.answer os.watched machine 0 small
  let b := a.2.1.answer os.watched a.2.2 0 large
  let c := (b.2.1.reset 0).answer os.watched b.2.2 0 small
  let d := c.2.1.answer os.watched c.2.2 0 word
  let e := d.2.1.releaseThread os.watched d.2.2 0 1
  let f := e.1.answer os.watched e.2 0 page
  have one := answered p machine small a rfl (by decide +kernel)
  have two := answered a.2.1 a.2.2 large b rfl (by decide +kernel)
  have three := answered (b.2.1.reset 0) b.2.2 small c rfl (by decide +kernel)
  have four := answered c.2.1 c.2.2 word d rfl (by decide +kernel)
  have gone : d.2.1.releaseThread os.watched d.2.2 0 1 = e := rfl
  have five := answered e.1 e.2 page f rfl (by decide +kernel)
  have told : a.1.map (a.2.1.spot? 0 1) = .ok (some ⟨0, 0, 0⟩) ∧
      b.1.map (b.2.1.spot? 0 0) = .ok (some ⟨0, 0, 0⟩) ∧
      c.1.map (c.2.1.spot? 0 1) = .ok (some ⟨0, 0, 0⟩) ∧
      d.1.map (d.2.1.spot? 0 0) = .ok (some ⟨0, 0, 0⟩) ∧
      f.1.map (f.2.1.spot? 0 0) = .ok (some ⟨0, 4096, 0⟩) := by decide +kernel
  let g := p.answer os.watched machine 0 large
  let h := (g.2.1.reset 0).answer os.watched g.2.2 0 word
  let k := h.2.1.answer os.watched h.2.2 0 page
  have six := answered p machine large g rfl (by decide +kernel)
  have seven := answered (g.2.1.reset 0) g.2.2 word h rfl (by decide +kernel)
  have eight := answered h.2.1 h.2.2 page k rfl (by decide +kernel)
  have again : g.1.map (g.2.1.spot? 0 0) = .ok (some ⟨0, 0, 0⟩) ∧
      h.1.map (h.2.1.spot? 0 0) = .ok (some ⟨0, 0, 0⟩) ∧
      k.1.map (k.2.1.spot? 0 0) = .ok (some ⟨0, 4096, 0⟩) := by decide +kernel
  -- From here on only the answers count: the unifier must not run the arena again.
  clear_value a b c d e f g h k
  have runs : Pool.Plays contract 0 true p [.ask small 0, .ask large 0, .reset, .ask small 0,
      .ask word 0, .release 1, .ask page 0] _ f.2.1 :=
    .step one told.1 <| .step two told.2.1 <| .reset <| .step three told.2.2.1 <|
      .step four told.2.2.2.1 <| .release (gone : _ = (e.1, e.2)) <| .step five told.2.2.2.2 <| .nil _
  have alone : Pool.Plays contract 0 true p [.ask large 0, .reset, .ask word 0, .ask page 0] _
      k.2.1 :=
    .step six again.1 <| .reset <| .step seven again.2.1 <| .step eight again.2.2 <| .nil _
  exact ⟨p, _, _, _, _, _, adds, runs, alone, rfl, rfl,
    (schedule_independent 0 adds runs adds alone).1⟩

end NumaHeap.Arena
