import NumaHeap.Proofs.Arena.Rerun

/-!
What stays of an arena, and what becomes of its chains. The block size and the wishes of an arena are
given when it is added and do not change. A thread that releases its blocks, or exits, loses its own
chain, and all others keep theirs.
-/

namespace NumaHeap

variable {σ : Type}

theorem Supply.unmapAll_wishes (os : Platform σ) (s : Supply σ) (regions : List Region) :
    (s.unmapAll os regions).mapper.wishes = s.mapper.wishes := by
  induction regions generalizing s with
  | nil => rfl
  | cons region rest ih => exact ih (s.unmap os region)

namespace Arena

variable {os : Platform σ}

theorem Chain.extend_wishes (os : Platform σ) (blockSize : PowerOfTwo) (c : Chain) (s : Supply σ)
    (rounded node : Nat) :
    (c.extend os blockSize s rounded node).2.mapper.wishes = s.mapper.wishes := by
  unfold extend
  split
  · rfl
  · next length _ =>
    have wishes := Supply.map_wishes os s length node
    split <;> next mapped =>
      rw [mapped] at wishes
      exact wishes

theorem Chain.allocate_wishes (os : Platform σ) (blockSize : PowerOfTwo) (c : Chain)
    (s : Supply σ) (r : Request) :
    (c.allocate os blockSize s r).2.2.mapper.wishes = s.mapper.wishes := by
  simp only [allocate]
  split
  · rfl
  · split
    · rfl
    · have wishes := extend_wishes os blockSize c s r.rounded (r.node.getD c.preferred)
      split <;> next extended =>
        rw [extended] at wishes
        exact wishes

/-- What is agreed on when an arena is added. -/
structure Terms where
  blockSize : PowerOfTwo
  hugePages : Bool
  numaAware : Bool

/-- What was agreed on, and whether the arena is still in use. -/
def State.terms (a : State) : Terms × Bool :=
  (⟨a.blockSize, a.mapper.hugePages, a.mapper.numaAware⟩, a.active)

theorem State.terms_congr {a b : State} (blockSize : a.blockSize = b.blockSize)
    (wishes : a.mapper.wishes = b.mapper.wishes) (active : a.active = b.active) :
    a.terms = b.terms := by
  obtain ⟨hugePages, numaAware⟩ := Prod.mk.inj wishes
  rw [terms, blockSize, hugePages, numaAware, active, terms]

namespace Pool

variable {p after : Pool} {machine later : Machine σ} {id : Nat} {thread t : ThreadId} {slot : Slot}
  {a : State} {f : State → State} {gone test : Guard → Bool}

/-- The terms of an arena. -/
def terms? (p : Pool) (id : Nat) : Option (Terms × Bool) := (p.arena? id).map State.terms

theorem terms?_modify (same : ∀ a, p.arena? id = some a → (f a).terms = a.terms) (other : Nat) :
    (p.modify id f).terms? other = p.terms? other := by
  rw [terms?, arena?_modify]
  split
  · next here =>
    subst here
    rw [terms?]
    cases found : p.arena? id with
    | none => rfl
    | some a => exact congrArg some (same a found)
  · rfl

theorem terms?_releaseSlot (os : Platform σ) (machine : Machine σ) (id : Nat) (slot : Slot)
    (other : Nat) : (p.releaseSlot os machine id slot).1.terms? other = p.terms? other := by
  unfold releaseSlot
  cases found : p.arena? id with
  | none => rfl
  | some a =>
    refine terms?_modify (fun b there => ?_) other
    cases found.symm.trans there
    exact State.terms_congr rfl (Supply.unmapAll_wishes os ⟨a.mapper, machine⟩ _) rfl

theorem terms?_dropGuard (os : Platform σ) (machine : Machine σ) (g : Guard) (other : Nat) :
    (p.dropGuard os machine g).1.terms? other = p.terms? other := by
  unfold dropGuard
  split
  · rfl
  · split
    · split
      · rfl
      · next slot _ =>
        rw [terms?_releaseSlot]
        exact terms?_modify (f := (·.dropSlot slot.address)) (fun _ _ => rfl) other
    · rfl

theorem terms?_dropGuards (os : Platform σ) (machine : Machine σ) (gs : List Guard) (other : Nat) :
    (p.dropGuards os machine gs).1.terms? other = p.terms? other := by
  induction gs generalizing p machine with
  | nil => rfl
  | cons g rest ih => exact (ih _).trans (terms?_dropGuard os machine g other)

theorem terms?_dropGuardsWhere (os : Platform σ) (machine : Machine σ) (thread : ThreadId)
    (test : Guard → Bool) (other : Nat) :
    (p.dropGuardsWhere os machine thread test).1.terms? other = p.terms? other := by
  rw [dropGuardsWhere_eq]
  exact terms?_dropGuards os machine _ other

theorem terms?_reset (p : Pool) (id other : Nat) : (p.reset id).terms? other = p.terms? other := by
  refine terms?_modify ?_ other
  intros
  rfl

/-- What an arena turns down itself, it turns down for everyone and at any time. -/
theorem Ask.denied {ask : Ask} (none : ask.request? os = none) :
    ∃ error, ∀ (p : Pool) (machine : Machine σ) (id : Nat),
      p.answer os machine id ask = (.error error, p, machine) := by
  unfold Ask.request? at none
  unfold answer allocate
  by_cases empty : ask.size = 0
  · exact ⟨_, fun p machine id => if_pos empty⟩
  · simp only [if_neg empty]
    cases unknown : ask.node.filter (!os.topology.contains ·) with
    | some node => exact ⟨_, fun p machine id => rfl⟩
    | none =>
      have known : ¬ask.node.any (!os.topology.contains ·) = true := by
        intro off
        obtain ⟨node, asked, off⟩ := (Option.any_eq_true _ _).1 off
        exact Option.filter_eq_none_iff.1 unknown node asked off
      rw [if_neg (not_or.2 ⟨empty, known⟩), Option.map_eq_none_iff] at none
      simp only [none]
      exact ⟨_, fun p machine id => rfl⟩

/-- A slot is lost if the guard that was made with it is gone. -/
theorem Orderly.slotOf?_clears (orderly : p.Orderly)
    (clears : Clears gone p after) :
    after.slotOf? id t = (p.slotOf? id t).filter fun slot => !gone (slot.guard id) := by
  have origin {slot : Slot} (there : after.slotOf? id t = some slot) :
      p.slotOf? id t = some slot ∧ gone (slot.guard id) = false := by
    obtain ⟨b, here, member, owner⟩ := owns_of_slotOf? there
    obtain ⟨a, found, fewer, -⟩ := clears.arena here
    rw [fewer] at member
    obtain ⟨inside, kept⟩ := List.mem_filter.1 member
    rw [Bool.not_eq_true'] at kept
    exact ⟨orderly.slotOf?_eq ⟨a, found, inside, owner⟩, kept⟩
  refine Option.ext fun slot => ⟨fun there => ?_, fun there => ?_⟩
  · obtain ⟨before, kept⟩ := origin there
    exact Option.filter_eq_some_iff.2 ⟨before, by rw [kept, Bool.not_false]⟩
  · obtain ⟨before, kept⟩ := Option.filter_eq_some_iff.1 there
    rw [Bool.not_eq_true'] at kept
    have stands := clears.stands.2 ⟨(owns_of_slotOf? before).stands, kept⟩
    obtain ⟨last, found⟩ := slotOf?_isSome stands
    obtain ⟨same, -⟩ := origin found
    cases before.symm.trans same
    exact found

/-- A thread that drops the guards of an arena loses its chain there, and no other does. -/
theorem Orderly.chainOf?_dropGuardsWhere (orderly : p.Orderly)
    (dropped : p.dropGuardsWhere os machine thread test = (after, later))
    (all : ∀ {g}, p.Stands thread g → g.arena = id → test g = true) :
    after.chainOf? id t = if t = thread then none else p.chainOf? id t := by
  obtain ⟨clears, -⟩ := dropGuardsWhere_clears orderly.uniform dropped
  rw [chainOf?, orderly.slotOf?_clears clears, chainOf?]
  cases before : p.slotOf? id t with
  | none => split <;> rfl
  | some slot =>
    have stands := (owns_of_slotOf? before).stands
    split
    · next own =>
      subst own
      have member := List.mem_filter.2 ⟨orderly.guarded stands, all stands rfl⟩
      rw [Option.filter_some, if_neg, Option.map_none]
      simpa using member
    · next other =>
      have absent : slot.guard id ∉ (p.guards thread).filter test := by
        intro taken
        obtain ⟨a, found, -⟩ := owns_of_slotOf? before
        have current := (stands.generation orderly.sound found).symm
        have also := orderly.sound.stands (List.mem_filter.1 taken).1 found current
        exact other (stands.unique orderly.sound also rfl rfl).1
      rw [Option.filter_some, if_pos]
      rwa [Bool.not_eq_true', List.contains_eq_mem, decide_eq_false_iff_not]

theorem Orderly.chainOf?_releaseThread (orderly : p.Orderly) (found : p.arena? id = some a)
    (released : p.releaseThread os machine id thread = (after, later)) :
    after.chainOf? id t = if t = thread then none else p.chainOf? id t := by
  rw [orderly.releaseThread_eq found] at released
  refine orderly.chainOf?_dropGuardsWhere released fun stands here => ?_
  exact beq_iff_eq.2 (stands.generation orderly.sound (here ▸ found))

theorem Orderly.chainOf?_exitThread (orderly : p.Orderly)
    (exited : p.exitThread os machine thread = (after, later)) :
    after.chainOf? id t = if t = thread then none else p.chainOf? id t :=
  orderly.chainOf?_dropGuardsWhere exited fun _ _ => rfl

theorem chainOf?_reset (p : Pool) (id : Nat) (t : ThreadId) :
    (p.reset id).chainOf? id t = (p.chainOf? id t).map Chain.reset := by
  rw [chainOf?, reset, slotOf?_modify (h := fun slot => { slot with chain := slot.chain.reset })
    (fun _ => rfl) fun _ => rfl, chainOf?, Option.map_map, Option.map_map]
  rfl

end Pool

end Arena

end NumaHeap
