import NumaHeap.Memory

/-!
The list of freed objects of a slab. It takes no room of its own: the first word of each freed
object holds the address of the next one, and zero at the end of the list.
-/

namespace NumaHeap.Slab

/-- Bytes that a link takes, hence the least size of an object on a list. -/
def linkSize : Nat := 8

/-- The head and the length of a list whose links are kept in memory. -/
structure FreeList where
  head : Option Nat := none
  length : Nat := 0
deriving DecidableEq

namespace FreeList

/-- The word that stands for a link. -/
def link (next : Option Nat) : Nat := next.getD 0

/-- The link that a word stands for. -/
def ofLink (word : Nat) : Option Nat := if word = 0 then none else some word

def isEmpty (l : FreeList) : Bool := l.head.isNone

/-- Puts an object on top of the list; its first word becomes the link. -/
def push (l : FreeList) (memory : Memory) (object : Nat) : FreeList × Memory :=
  (⟨some object, l.length + 1⟩, memory.setWord object (link l.head))

/-- Takes the object on top off the list, and clears its link. -/
def pop? (l : FreeList) (memory : Memory) : Option (Nat × FreeList × Memory) :=
  l.head.map fun object =>
    (object, ⟨ofLink (memory.getWord object), l.length - 1⟩, memory.setWord object 0)

/-- Forgets all objects; their memory is left as it is. -/
def clear (_ : FreeList) : FreeList := {}

end FreeList

end NumaHeap.Slab
