import NumaHeap.Region

/-!
Objects with a mapping of their own. Each node has a registry of its live objects and keeps account
of their number and their bytes apart from it.
-/

namespace NumaHeap

namespace Large

/-- A live object. -/
structure Object where
  region : Region
  size : Nat
deriving DecidableEq

/-- Number and bytes of the live objects of a node. -/
structure Usage where
  objects : Nat := 0
  bytes : Nat := 0
deriving DecidableEq

/-- The live objects of a node, latest first, and the account of them. -/
structure Registry where
  objects : List Object := []
  usage : Usage := {}
deriving DecidableEq

namespace Registry

/-- Records an object. -/
def insert (r : Registry) (o : Object) : Registry :=
  { objects := o :: r.objects
    usage := ⟨r.usage.objects + 1, r.usage.bytes + o.size⟩ }

/-- The object that starts at an address. -/
def find? (r : Registry) (address : Nat) : Option Object :=
  r.objects.find? (·.region.start == address)

/-- Removes an object that was found. -/
def erase (r : Registry) (o : Object) : Registry :=
  { objects := r.objects.eraseP (·.region.start == o.region.start)
    usage := ⟨r.usage.objects - 1, r.usage.bytes - o.size⟩ }

/-- The account that the objects themselves call for. -/
def recount (r : Registry) : Usage := ⟨r.objects.length, (r.objects.map (·.size)).sum⟩

end Registry

/-- A report of the large objects. -/
structure Stats where
  objects : Nat := 0
  bytes : Nat := 0
  allocations : Nat := 0
  deallocations : Nat := 0
  hugeObjects : Nat := 0
  hugeFallbacks : Nat := 0
  bindFailures : Nat := 0
  nodes : List Usage := []
deriving DecidableEq

end Large

/-- The registries of all nodes. -/
structure Large where
  mapper : Mapper
  registries : List Large.Registry
  allocations : Nat := 0
  deallocations : Nat := 0
  hugeObjects : Nat := 0

namespace Large

/-- An empty registry for every node. -/
def create (topology : Topology) (hugePages numaAware : Bool) : Large where
  mapper := { hugePages, numaAware }
  registries := topology.nodes.map fun _ => {}

variable {σ : Type}

/-- Maps an object on a node. -/
def allocate (os : Platform σ) (l : Large) (machine : Machine σ) (size node : Nat) :
    Except AllocError Nat × Large × Machine σ :=
  if size = 0 then (.error .zeroSize, l, machine)
  else match l.registries[node]? with
    | none => (.error (.invalidNode node), l, machine)
    | some registry =>
      match Supply.map os ⟨l.mapper, machine⟩ size node with
      | (.error cause, supply) =>
        (.error (.map cause), { l with mapper := supply.mapper }, supply.machine)
      | (.ok region, supply) =>
        (.ok region.start,
          { l with
            mapper := supply.mapper
            registries := l.registries.set node (registry.insert ⟨region, size⟩)
            allocations := l.allocations + 1
            hugeObjects := l.hugeObjects + region.isHuge.toNat },
          supply.machine)

/-- The live object that starts at an address, and the position of its registry. -/
def locate? (l : Large) (address : Nat) : Option (Nat × Object) :=
  (List.range l.registries.length).findSome? fun index => do
    let registry ← l.registries[index]?
    let object ← registry.find? address
    return (index, object)

/-- Releases the object that starts at an address, and answers its size. -/
def free (os : Platform σ) (l : Large) (machine : Machine σ) (address : Nat) :
    Except FreeError Nat × Large × Machine σ :=
  match l.locate? address with
  | none => (.error (.unknownPointer address), l, machine)
  | some (index, object) =>
    let supply := Supply.unmap os ⟨l.mapper, machine⟩ object.region
    (.ok object.size,
      { l with
        mapper := supply.mapper
        registries := l.registries.modify index (·.erase object)
        deallocations := l.deallocations + 1
        hugeObjects := l.hugeObjects - object.region.isHuge.toNat },
      supply.machine)

/-- The size of the live object that starts at an address. -/
def sizeOf? (l : Large) (address : Nat) : Option Nat :=
  (l.locate? address).map fun (_, object) => object.size

/-- The account of a node. -/
def usage (l : Large) (node : Nat) : Usage := (l.registries[node]?).elim {} (·.usage)

/-- Every account agrees with its objects. -/
def validate (l : Large) : Bool := l.registries.all fun r => r.recount = r.usage

/-- Gives all objects back. -/
def close (os : Platform σ) (l : Large) (machine : Machine σ) : Large × Machine σ :=
  let supply := Supply.unmapAll os ⟨l.mapper, machine⟩
    (l.registries.flatMap fun r => r.objects.map (·.region))
  ({ l with mapper := supply.mapper, registries := l.registries.map fun _ => {} }, supply.machine)

/-- The report of the large objects. -/
def stats (l : Large) : Stats where
  objects := (l.registries.map (·.usage.objects)).sum
  bytes := (l.registries.map (·.usage.bytes)).sum
  allocations := l.allocations
  deallocations := l.deallocations
  hugeObjects := l.hugeObjects
  hugeFallbacks := l.mapper.hugeFallbacks
  bindFailures := l.mapper.bindFailures
  nodes := l.registries.map (·.usage)

end Large

end NumaHeap
