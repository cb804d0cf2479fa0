import NumaHeap.Proofs.Memory

/-!
Free lists and the objects on them. The links of a list are kept in the first words of its objects,
so a list stands for its objects only as long as nobody else writes there.
-/

namespace NumaHeap.Slab.FreeList

variable {m n : Memory} {l : FreeList} {head : Option Nat} {object : Nat} {objects : List Nat}

/-- Following the links from the head leads through the objects in order. -/
def Linked (m : Memory) : Option Nat → List Nat → Prop
  | head, [] => head = none
  | head, object :: rest => head = some object ∧ Linked m (ofLink (m.getWord object)) rest

/-- An object whose first word can hold a link: it is not at address zero, which ends a list. -/
def Linkable (object : Nat) : Prop := 0 < object ∧ object + linkSize ≤ Word.bound

/-- The list stands for these objects. -/
structure Holds (l : FreeList) (m : Memory) (objects : List Nat) : Prop where
  linked : Linked m l.head objects
  length : l.length = objects.length

theorem empty_holds (m : Memory) : ({} : FreeList).Holds m [] := ⟨rfl, rfl⟩

theorem Linked.congr (linked : Linked m head objects)
    (same : ∀ object ∈ objects, ∀ address, (Memory.linkAt object).Holds address →
      n.get address = m.get address) : Linked n head objects := by
  induction objects generalizing head with
  | nil => exact linked
  | cons object rest ih =>
    obtain ⟨top, next⟩ := linked
    refine ⟨top, ?_⟩
    rw [Memory.getWord_congr (same object (List.mem_cons_self ..))]
    exact ih next fun other member => same other (List.mem_cons_of_mem _ member)

theorem Holds.congr (holds : l.Holds m objects)
    (same : ∀ object ∈ objects, ∀ address, (Memory.linkAt object).Holds address →
      n.get address = m.get address) : l.Holds n objects :=
  ⟨holds.linked.congr same, holds.length⟩

theorem ofLink_link (linkable : ∀ object, head = some object → 0 < object) :
    ofLink (link head) = head := by
  cases head with
  | none => rfl
  | some object =>
    have positive := linkable object rfl
    exact if_neg (by change object ≠ 0; omega)

theorem Linked.head_mem (linked : Linked m head objects) (some : head = some object) :
    object ∈ objects := by
  cases objects with
  | nil =>
    rw [linked] at some
    cases some
  | cons first rest =>
    rw [linked.1] at some
    cases some
    exact List.mem_cons_self ..

/-- The links of other objects are not touched by that of a new one. -/
theorem push_holds (holds : l.Holds m objects) (linkable : Linkable object)
    (others : ∀ other ∈ objects, Linkable other)
    (apart : ∀ other ∈ objects, (Memory.linkAt object).Apart (Memory.linkAt other)) :
    (l.push m object).1.Holds (l.push m object).2 (object :: objects) := by
  have fits : link l.head < Word.bound := by
    cases top : l.head with
    | none => decide
    | some other =>
      have room := (others other (holds.linked.head_mem top)).2
      change other < Word.bound
      unfold linkSize at room
      omega
  have next : (m.setWord object (link l.head)).getWord object = link l.head :=
    Memory.getWord_setWord fits linkable.2
  refine ⟨⟨rfl, ?_⟩, congrArg (· + 1) holds.length⟩
  change Linked (m.setWord object (link l.head)) (ofLink ((m.setWord object _).getWord object)) _
  rw [next, ofLink_link fun other top => (others other (holds.linked.head_mem top)).1]
  apply holds.linked.congr
  intro other member address inside
  exact Memory.get_setWord_outside ((apart other member).symm.not_holds inside)

/-- What is popped is the first of the objects, and the list is left with the others. -/
theorem pop?_holds {after : FreeList} (holds : l.Holds m objects)
    (popped : l.pop? m = some (object, after, n)) :
    ∃ rest, objects = object :: rest ∧ n = m.setWord object 0 ∧
      ((∀ other ∈ rest, (Memory.linkAt object).Apart (Memory.linkAt other)) →
        after.Holds n rest) := by
  unfold pop? at popped
  cases top : l.head with
  | none =>
    rw [top] at popped
    cases popped
  | some first =>
    rw [top, Option.map_some, Option.some.injEq, Prod.mk.injEq, Prod.mk.injEq] at popped
    obtain ⟨rfl, rfl, rfl⟩ := popped
    obtain ⟨linked, length⟩ := holds
    rw [top] at linked
    cases objects with
    | nil => cases linked
    | cons object rest =>
      obtain ⟨same, next⟩ := linked
      cases same
      refine ⟨rest, rfl, rfl, fun apart => ⟨?_, ?_⟩⟩
      · dsimp only
        apply next.congr
        intro other member address inside
        exact Memory.get_setWord_outside ((apart other member).symm.not_holds inside)
      · change l.length - 1 = _
        rw [length, List.length_cons, Nat.add_sub_cancel]

end NumaHeap.Slab.FreeList
