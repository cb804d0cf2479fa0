import NumaHeap.Arena.Chain
import NumaHeap.Proofs.Extent
import NumaHeap.Proofs.Parts

/-!
What the slabs have done for their clients, and what can be told from it without a look at a list or a
region: where each object was carved, which objects are live, and which wait to be used again. The
objects that wait make one stack for each class on each node, the one freed last on top.
-/

namespace NumaHeap.Slab

/-- Something that was done for a client. -/
inductive Event where
  /-- An object was handed out, from a node and for so many bytes. -/
  | served (placement : Arena.Placement) (size : Nat)
  /-- An object was taken back. -/
  | freed (object : Nat)

/-- Latest first. -/
abbrev History := List Event

namespace History

/-- The node and the class from which an object was carved: those for which it was served first. -/
def origin? : History → (object : Nat) → Option (Nat × Nat)
  | [], _ => none
  | .served placement size :: older, object =>
    (origin? older object).or
      (if placement.address = object then (Size.slabClass? size).map (placement.node, ·) else none)
  | .freed _ :: older, object => origin? older object

/-- The objects of a class on a node that were freed and not used again, latest first. -/
def stack : History → (node sizeClass : Nat) → List Nat
  | [], _, _ => []
  | .served placement _ :: older, node, sizeClass =>
    (stack older node sizeClass).filter (· != placement.address)
  | .freed object :: older, node, sizeClass =>
    if origin? older object = some (node, sizeClass) then object :: stack older node sizeClass
    else stack older node sizeClass

/-- The objects that were handed out and not taken back, each as large as was asked for. -/
def live : History → List Extent
  | [] => []
  | .served placement size :: older => ⟨placement.address, size⟩ :: live older
  | .freed object :: older => (live older).filter (·.start != object)

/-- The live objects that were carved from a class on a node. -/
def liveAt (h : History) (node sizeClass : Nat) : List Extent :=
  h.live.filter fun x => origin? h x.start = some (node, sizeClass)

/-- The first place of a region at which no object was ever handed out. -/
def uncarved? (h : History) (region : Region) (objectSize : Nat) : Option Nat :=
  ((List.range (region.length / objectSize)).map fun count =>
    region.start + count * objectSize).find? fun object => (origin? h object).isNone

variable {h : History} {object size node sizeClass : Nat} {placement : Arena.Placement}
  {place : Nat × Nat} {x : Extent}

theorem origin?_served_of_some (known : origin? h object = some place) :
    origin? (.served placement size :: h) object = some place := by
  simp [origin?, known]

theorem origin?_served_of_ne (other : placement.address ≠ object) :
    origin? (.served placement size :: h) object = origin? h object := by
  simp [origin?, other]

theorem origin?_served_self (fresh : origin? h placement.address = none)
    (fits : Size.slabClass? size = some sizeClass) :
    origin? (.served placement size :: h) placement.address = some (placement.node, sizeClass) := by
  simp [origin?, fresh, fits]

/-- What waits on a stack was carved there. -/
theorem origin?_of_mem_stack (waits : object ∈ stack h node sizeClass) :
    origin? h object = some (node, sizeClass) := by
  induction h with
  | nil => cases waits
  | cons event older ih =>
    cases event with
    | served => exact origin?_served_of_some (ih (List.mem_filter.1 waits).1)
    | freed other =>
      unfold stack at waits
      split at waits
      · next carved =>
        rcases List.mem_cons.1 waits with rfl | before
        · exact carved
        · exact ih before
      · exact ih waits

/-- What waits is not live. -/
theorem start_ne_of_mem_stack (waits : object ∈ stack h node sizeClass) (held : x ∈ live h) :
    x.start ≠ object := by
  induction h with
  | nil => cases held
  | cons event older ih =>
    cases event with
    | served placement size =>
      obtain ⟨before, other⟩ := List.mem_filter.1 waits
      rcases List.mem_cons.1 held with rfl | old
      · exact fun same => bne_iff_ne.1 other same.symm
      · exact ih before old
    | freed other =>
      obtain ⟨old, different⟩ := List.mem_filter.1 held
      unfold stack at waits
      split at waits
      · rcases List.mem_cons.1 waits with rfl | before
        · exact bne_iff_ne.1 different
        · exact ih before old
      · exact ih waits old

/-- A stack that is not touched by a service. -/
theorem stack_served_of_not_mem (elsewhere : placement.address ∉ stack h node sizeClass) :
    stack (.served placement size :: h) node sizeClass = stack h node sizeClass := by
  rw [stack, List.filter_eq_self]
  exact fun object waits => bne_iff_ne.2 fun same => elsewhere (same ▸ waits)

/-- What is used again leaves its stack. -/
theorem stack_served_of_top {rest : List Nat} (top : stack h node sizeClass = placement.address :: rest)
    (once : (stack h node sizeClass).Nodup) :
    stack (.served placement size :: h) node sizeClass = rest := by
  rw [top] at once
  rw [stack, top, List.filter_cons_of_neg (by simp), List.filter_eq_self]
  exact fun object waits => bne_iff_ne.2 fun same => (List.nodup_cons.1 once).1 (same ▸ waits)

end History

end NumaHeap.Slab
