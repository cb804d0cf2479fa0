import NumaHeap.Proofs.Slab.Checked

/-!
A free list in use. Objects are pushed, popped and forgotten in any order, while others write wherever
no object is listed. The list is then the stack of its objects, though it is kept in their own memory;
and of that memory it takes the links and no more.
-/

namespace NumaHeap.Slab.FreeList

/-- An object that may be pushed: aligned bytes of the address space, at least as many as a link
takes, and not at address zero. -/
structure Suitable (object : Extent) : Prop where
  positive : 0 < object.start
  aligned : 8 ∣ object.start
  room : linkSize ≤ object.length
  inside : object.stop ≤ Word.bound

/-- An object on a list, and memory as it was when the object was pushed. -/
structure Listed where
  object : Extent
  before : Memory

/-- What is done with a list, or with memory by others. -/
inductive Action where
  | push (object : Extent)
  | pop
  | clear
  | write (start : Nat) (bytes : List UInt8)

/-- A list and its memory, beside the stack that it stands for. -/
structure Scene where
  list : FreeList
  memory : Memory
  /-- The objects on the list, the last pushed first. -/
  stack : List Listed
  /-- All objects that were ever pushed. -/
  pushed : List Extent
  /-- Memory as the writes of the others alone would have left it. -/
  foreign : Memory

namespace Scene

/-- An empty list in some memory. -/
def start (memory : Memory) : Scene := ⟨{}, memory, [], [], memory⟩

/-- An object is pushed where none is listed, and nobody else writes there until it is popped. -/
def Allows (s : Scene) : Action → Prop
  | .push object => Suitable object ∧ ∀ listed ∈ s.stack, object.Apart listed.object
  | .write start bytes =>
    ∀ listed ∈ s.stack, Extent.Apart ⟨start, bytes.length⟩ listed.object
  | .pop => True
  | .clear => True

/-- The scene after an action. The stack follows the actions alone, whatever the list answers. -/
def act (s : Scene) : Action → Scene
  | .push object =>
    let (list, memory) := s.list.push s.memory object.start
    { s with list, memory, stack := ⟨object, s.memory⟩ :: s.stack, pushed := object :: s.pushed }
  | .pop =>
    match s.list.pop? s.memory with
    | some (_, list, memory) => { s with list, memory, stack := s.stack.tail }
    | none => { s with stack := s.stack.tail }
  | .clear => { s with list := s.list.clear, stack := [] }
  | .write start bytes =>
    { s with memory := s.memory.write start bytes, foreign := s.foreign.write start bytes }

/-- The scenes that allowed actions lead to. -/
inductive Reached (memory : Memory) : Scene → Prop where
  | start : Reached memory (start memory)
  | act {s : Scene} (before : Reached memory s) {action : Action} (allowed : s.Allows action) :
      Reached memory (s.act action)

/-- Where the objects of a stack start. -/
def addresses (stack : List Listed) : List Nat := stack.map (·.object.start)

/-- What a list owes to its user. -/
structure Behaves (s : Scene) : Prop where
  length : s.list.length = s.stack.length
  isEmpty : s.list.isEmpty = s.stack.isEmpty
  /-- Nothing is popped exactly when nothing is listed, -/
  bottom : s.list.pop? s.memory = none ↔ s.stack = []
  /-- and else what was pushed last. Its link is cleared and its other bytes are as they were when it
  was pushed. -/
  top : ∀ top rest, s.stack = top :: rest → ∃ list memory,
    s.list.pop? s.memory = some (top.object.start, list, memory) ∧
    ∀ address, top.object.Holds address → memory.get address =
      if address < top.object.start + linkSize then 0 else top.before.get address
  /-- No byte is changed but for the links of what was pushed, and what others wrote. -/
  untouched : ∀ address, (∀ object ∈ s.pushed, ¬(Memory.linkAt object.start).Holds address) →
    s.memory.get address = s.foreign.get address
  /-- No check fails. -/
  pushChecked : ∀ object, Suitable object →
    s.list.pushChecked s.memory object.start = some (s.list.push s.memory object.start)
  popChecked : s.list.popChecked s.memory = some (s.list.pop? s.memory)

end Scene

theorem Suitable.linkable {object : Extent} (suitable : Suitable object) :
    Linkable object.start := by
  obtain ⟨positive, -, room, inside⟩ := suitable
  unfold Extent.stop at inside
  exact ⟨positive, by omega⟩

/-- The link of an object is a part of it. -/
theorem Suitable.link_within {object : Extent} (suitable : Suitable object) :
    (Memory.linkAt object.start).Within object :=
  ⟨Nat.le_refl _, Nat.add_le_add_left suitable.room object.start⟩

namespace Scene

variable {s : Scene} {memory : Memory} {listed top : Listed} {rest : List Listed} {address : Nat}

/-- What is known of a scene: the list leads through the objects of the stack, which are apart, and all but
their links is as it was. -/
structure Kept (s : Scene) : Prop where
  holds : s.list.Holds s.memory (addresses s.stack)
  suitable : ∀ listed ∈ s.stack, Suitable listed.object
  apart : s.stack.Pairwise fun later earlier => later.object.Apart earlier.object
  pushed : ∀ listed ∈ s.stack, listed.object ∈ s.pushed
  content : ∀ listed ∈ s.stack, ∀ address, listed.object.Holds address →
    ¬(Memory.linkAt listed.object.start).Holds address →
    s.memory.get address = listed.before.get address
  untouched : ∀ address, (∀ object ∈ s.pushed, ¬(Memory.linkAt object.start).Holds address) →
    s.memory.get address = s.foreign.get address

namespace Kept

theorem start (memory : Memory) : Kept (Scene.start memory) where
  holds := empty_holds memory
  suitable := by simp [Scene.start]
  apart := .nil
  pushed := by simp [Scene.start]
  content := by simp [Scene.start]
  untouched _ _ := rfl

theorem linkable (kept : s.Kept) : ∀ object ∈ addresses s.stack, Linkable object :=
  List.forall_mem_map.2 fun listed member => (kept.suitable listed member).linkable

/-- Links of objects that are apart are apart. -/
theorem links_apart {object other : Extent} (first : Suitable object) (second : Suitable other)
    (apart : object.Apart other) :
    (Memory.linkAt object.start).Apart (Memory.linkAt other.start) :=
  apart.mono first.link_within second.link_within

/-- Objects that are apart start at different addresses. -/
theorem nodup (kept : s.Kept) : (addresses s.stack).Nodup := by
  refine List.pairwise_map.2 (kept.apart.imp_of_mem ?_)
  intro later earlier first second apart same
  have nonempty {listed : Listed} (member : listed ∈ s.stack) : 0 < listed.object.length :=
    Nat.lt_of_lt_of_le (by decide) (kept.suitable listed member).room
  exact Extent.not_apart_of_start same (nonempty first) (nonempty second) apart

/-- A push writes the link of the new object, which is apart from all that is listed. -/
theorem push {object : Extent} (kept : s.Kept) (suitable : Suitable object)
    (apart : ∀ listed ∈ s.stack, object.Apart listed.object) : Kept (s.act (.push object)) where
  holds := by
    have links : ∀ other ∈ addresses s.stack,
        (Memory.linkAt object.start).Apart (Memory.linkAt other) :=
      List.forall_mem_map.2 fun listed member =>
        links_apart suitable (kept.suitable listed member) (apart listed member)
    exact push_holds kept.holds suitable.linkable kept.linkable links
  suitable := List.forall_mem_cons.2 ⟨suitable, kept.suitable⟩
  apart := List.pairwise_cons.2 ⟨apart, kept.apart⟩
  pushed := List.forall_mem_cons.2
    ⟨List.mem_cons_self, fun listed member => List.mem_cons_of_mem _ (kept.pushed listed member)⟩
  content := by
    refine List.forall_mem_cons.2 ⟨fun address _ outside => Memory.get_setWord_outside outside, ?_⟩
    intro listed member address inside outside
    have other : ¬(Memory.linkAt object.start).Holds address := fun here =>
      (apart listed member).not_holds (suitable.link_within.holds here) inside
    exact (Memory.get_setWord_outside other).trans (kept.content listed member address inside outside)
  untouched address outside := by
    obtain ⟨here, others⟩ := List.forall_mem_cons.1 outside
    exact (Memory.get_setWord_outside here).trans (kept.untouched address others)

theorem pop?_of_stack (kept : s.Kept) (stack : s.stack = top :: rest) :
    ∃ list, s.list.pop? s.memory = some (top.object.start, list, s.memory.setWord top.object.start 0) ∧
      list.Holds (s.memory.setWord top.object.start 0) (addresses rest) := by
  have head : s.list.head = some top.object.start := by
    rw [kept.holds.linked.head_eq, stack]
    rfl
  have popped : s.list.pop? s.memory = some (top.object.start, _, _) :=
    congrArg (Option.map _) head
  refine ⟨_, popped, ?_⟩
  obtain ⟨others, same, -, holds⟩ := pop?_holds kept.holds popped
  rw [stack] at same
  obtain ⟨-, rfl⟩ := List.cons.inj same
  apply holds
  have apart := kept.apart
  have suitable := kept.suitable
  rw [stack] at apart suitable
  obtain ⟨first, suitable⟩ := List.forall_mem_cons.1 suitable
  exact List.forall_mem_map.2 fun listed member =>
    links_apart first (suitable listed member) ((List.pairwise_cons.1 apart).1 listed member)

theorem pop?_of_nil (kept : s.Kept) (stack : s.stack = []) : s.list.pop? s.memory = none := by
  have head : s.list.head = none := by
    rw [kept.holds.linked.head_eq, stack]
    rfl
  exact congrArg (Option.map _) head

/-- A pop clears the link of the first object, which is apart from all others. -/
theorem pop (kept : s.Kept) : Kept (s.act .pop) := by
  cases stack : s.stack with
  | nil =>
    have same : s.act .pop = s := by
      simp only [act, kept.pop?_of_nil stack, stack, List.tail_nil]
      rw [← stack]
    rwa [same]
  | cons top rest =>
    obtain ⟨list, popped, holds⟩ := kept.pop?_of_stack stack
    have next : s.act .pop =
        { s with list, memory := s.memory.setWord top.object.start 0, stack := rest } := by
      simp only [act, popped, stack, List.tail_cons]
    have later : ∀ {listed}, listed ∈ rest → listed ∈ s.stack := fun member => by
      rw [stack]
      exact List.mem_cons_of_mem _ member
    have first : top ∈ s.stack := by
      rw [stack]
      exact List.mem_cons_self
    have apart := kept.apart
    rw [stack, List.pairwise_cons] at apart
    have link := (kept.suitable top first).link_within
    rw [next]
    exact {
      holds
      suitable := fun listed member => kept.suitable listed (later member)
      apart := apart.2
      pushed := fun listed member => kept.pushed listed (later member)
      content := fun listed member address inside outside => by
        have other : ¬(Memory.linkAt top.object.start).Holds address := fun here =>
          (apart.1 listed member).not_holds (link.holds here) inside
        exact (Memory.get_setWord_outside other).trans
          (kept.content listed (later member) address inside outside)
      untouched := fun address outside =>
        (Memory.get_setWord_outside (outside top.object (kept.pushed top first))).trans
          (kept.untouched address outside) }

theorem clear (kept : s.Kept) : Kept (s.act .clear) where
  holds := empty_holds s.memory
  suitable := by simp [act]
  apart := .nil
  pushed := by simp [act]
  content := by simp [act]
  untouched := kept.untouched

/-- What others write is no part of a listed object. -/
theorem write {start : Nat} {bytes : List UInt8} (kept : s.Kept)
    (apart : ∀ listed ∈ s.stack, Extent.Apart ⟨start, bytes.length⟩ listed.object) :
    Kept (s.act (.write start bytes)) := by
  have same : ∀ listed ∈ s.stack, ∀ address, listed.object.Holds address →
      (s.memory.write start bytes).get address = s.memory.get address :=
    fun listed member address inside =>
      Memory.get_write_outside bytes ((apart listed member).symm.not_holds inside)
  exact {
    holds := by
      refine kept.holds.congr (List.forall_mem_map.2 fun listed member address inside => ?_)
      exact same listed member address ((kept.suitable listed member).link_within.holds inside)
    suitable := kept.suitable
    apart := kept.apart
    pushed := kept.pushed
    content := fun listed member address inside outside =>
      (same listed member address inside).trans (kept.content listed member address inside outside)
    untouched := fun address outside =>
      Memory.get_write_congr start bytes (kept.untouched address outside) }

theorem act {action : Action} (kept : s.Kept) (allowed : s.Allows action) : Kept (s.act action) := by
  cases action with
  | push object => exact kept.push allowed.1 allowed.2
  | pop => exact kept.pop
  | clear => exact kept.clear
  | write start bytes => exact kept.write allowed

/-- The object on top comes off with its link cleared and the rest of it as it was. -/
theorem popped (kept : s.Kept) (stack : s.stack = top :: rest) : ∃ list memory,
    s.list.pop? s.memory = some (top.object.start, list, memory) ∧
    ∀ address, top.object.Holds address → memory.get address =
      if address < top.object.start + linkSize then 0 else top.before.get address := by
  obtain ⟨list, popped, -⟩ := kept.pop?_of_stack stack
  refine ⟨list, _, popped, fun address inside => ?_⟩
  have member : top ∈ s.stack := by
    rw [stack]
    exact List.mem_cons_self
  split
  · next low => exact Memory.get_setWord_zero ⟨inside.1, low⟩
  · next high =>
    have outside : ¬(Memory.linkAt top.object.start).Holds address := fun here => high here.2
    exact (Memory.get_setWord_outside outside).trans
      (kept.content top member address inside outside)

theorem behaves (kept : s.Kept) : s.Behaves where
  length := by rw [kept.holds.length, addresses, List.length_map]
  isEmpty := by
    rw [FreeList.isEmpty, kept.holds.linked.head_eq, addresses]
    cases s.stack <;> rfl
  bottom := by
    refine ⟨fun none => ?_, kept.pop?_of_nil⟩
    cases stack : s.stack with
    | nil => rfl
    | cons top rest =>
      obtain ⟨list, popped, -⟩ := kept.pop?_of_stack stack
      rw [popped] at none
      cases none
  top _ _ := kept.popped
  untouched := kept.untouched
  pushChecked object suitable :=
    pushChecked_eq s.memory suitable.aligned (kept.holds.length_lt kept.nodup kept.linkable)
  popChecked := by
    refine popChecked_eq s.memory fun top => ?_
    obtain ⟨object, head⟩ := Option.isSome_iff_exists.1 top
    rw [kept.holds.length]
    exact List.length_pos_of_mem (kept.holds.linked.head_mem head)

end Kept

/-- A list behaves as the stack of its objects, in whatever memory and whatever is done with it, as long as
objects are pushed only where none is listed and nobody else writes there: it has the length of the stack and
is empty when that is; it pops what was pushed last and not yet popped, with the link cleared and
all other bytes as they were when it was pushed, and nothing exactly when nothing is listed; and it never
changes a byte but for the links of objects that were pushed. -/
theorem Reached.behaves_as_stack (reached : Reached memory s) : s.Behaves := by
  have kept : s.Kept := by
    induction reached with
    | start => exact .start memory
    | act before allowed ih => exact ih.act allowed
  exact kept.behaves

theorem behaves_after_foreign_write :
    let memory := Memory.zeros.fill 4096 32 0xAB
    let s := (((start memory).act (.push ⟨4096, 16⟩)).act (.push ⟨4112, 16⟩)).act .pop
    let later := s.act (.write 4112 [1, 2, 3])
    Reached memory later ∧ later.list.length = 1 ∧ later.memory.get 4128 = later.foreign.get 4128 ∧
      ∃ list after, later.list.pop? later.memory = some (4096, list, after) ∧ after.get 4096 = 0 ∧
        after.get 4104 = 0xAB := by
  intro memory s later
  have first : Reached memory ((start memory).act (.push ⟨4096, 16⟩)) :=
    .act .start ⟨⟨by decide, by decide, by decide, by decide⟩, by simp [start]⟩
  have second : Reached memory (((start memory).act (.push ⟨4096, 16⟩)).act (.push ⟨4112, 16⟩)) :=
    .act first ⟨⟨by decide, by decide, by decide, by decide⟩, by decide +kernel⟩
  have third : Reached memory s := .act second trivial
  have unlisted : ∀ listed ∈ s.stack, Extent.Apart ⟨4112, 3⟩ listed.object := by decide +kernel
  have last : Reached memory later := .act third unlisted
  obtain ⟨length, -, -, top, untouched, -, -⟩ := last.behaves_as_stack
  obtain ⟨list, after, popped, content⟩ := top ⟨⟨4096, 16⟩, memory⟩ [] (by rfl)
  refine ⟨last, length, untouched 4128 (by decide +kernel), list, after, popped, ?_, ?_⟩
  · rw [content 4096 (by decide)]
    rfl
  · rw [content 4104 (by decide)]
    decide +kernel

end Scene

end NumaHeap.Slab.FreeList
