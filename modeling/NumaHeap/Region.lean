import NumaHeap.Platform.Basic

/-!
Regions of mapped memory, and the one way in which all allocators obtain them. A long enough region
is first attempted with huge pages, and with normal pages if that fails; it is then bound to its
node. Neither huge pages nor binding can make a request fail: what goes wrong is only counted.
-/

namespace NumaHeap

/-- A mapping that one allocator owns. -/
structure Region where
  start : Nat
  length : Nat
  pages : PageKind
  /-- The node it was asked for. -/
  node : Nat
deriving DecidableEq

namespace Region

/-- One past the last byte. -/
def stop (r : Region) : Nat := r.start + r.length

/-- The region is backed by huge pages. -/
def isHuge (r : Region) : Bool := r.pages = .huge

/-- The address lies in the region. -/
def contains (r : Region) (address : Nat) : Bool := r.start ≤ address && address < r.stop

end Region

/-- How an allocator wants its regions, and what became of its wishes. -/
structure Mapper where
  hugePages : Bool
  numaAware : Bool
  hugeFallbacks : Nat := 0
  bindFailures : Nat := 0
  mappedBytes : Nat := 0
deriving DecidableEq

/-- The machine together with the mapper of the allocator that asks for regions. -/
structure Supply (σ : Type) where
  mapper : Mapper
  machine : Machine σ

namespace Supply

variable {σ : Type}

/-- The length to attempt with huge pages, if the attempt is worth making. -/
def hugeLength? (os : Platform σ) (s : Supply σ) (length : Nat) : Option Nat :=
  if s.mapper.hugePages && os.hugePageSize.value ≤ length &&
      os.hugePagesAvailable s.machine.system then
    os.hugePageSize.roundUp? length
  else none

/-- Maps a length as it is, with the given pages. -/
def mapPages (os : Platform σ) (s : Supply σ) (length node : Nat) (pages : PageKind) :
    Except MapError Region × Supply σ :=
  match s.machine.map os length pages with
  | (.ok start, machine) => (.ok ⟨start, length, pages, node⟩, { s with machine })
  | (.error cause, machine) => (.error cause, { s with machine })

/-- Counts a mapping of huge pages that failed. -/
def countFallback (s : Supply σ) : Supply σ :=
  { s with mapper := { s.mapper with hugeFallbacks := s.mapper.hugeFallbacks + 1 } }

/-- Maps whole pages: huge ones if possible, else normal ones. -/
def mapRounded (os : Platform σ) (s : Supply σ) (length node : Nat) :
    Except MapError Region × Supply σ :=
  match s.hugeLength? os length with
  | none => s.mapPages os length node .normal
  | some hugeLength =>
    match s.mapPages os hugeLength node .huge with
    | (.ok region, s) => (.ok region, s)
    | (.error _, s) => s.countFallback.mapPages os length node .normal

/-- Binds a region to its node, where that makes sense; a failure is counted. -/
def bindRegion (os : Platform σ) (s : Supply σ) (region : Region) : Supply σ :=
  if s.mapper.numaAware && os.topology.available then
    match s.machine.bind os region.start region.length region.node with
    | (.ok _, machine) => { s with machine }
    | (.error _, machine) =>
      { mapper := { s.mapper with bindFailures := s.mapper.bindFailures + 1 }, machine }
  else s

/-- Maps a region of at least `length` bytes for a node. -/
def map (os : Platform σ) (s : Supply σ) (length node : Nat) : Except MapError Region × Supply σ :=
  match os.pageSize.roundUp? length with
  | none => (.error .outOfMemory, s)
  | some length =>
    match s.mapRounded os length node with
    | (.error cause, s) => (.error cause, s)
    | (.ok region, s) =>
      let mapper := { s.mapper with mappedBytes := s.mapper.mappedBytes + region.length }
      (.ok region, { s with mapper }.bindRegion os region)

/-- Gives a region back. -/
def unmap (os : Platform σ) (s : Supply σ) (region : Region) : Supply σ :=
  { mapper := { s.mapper with mappedBytes := s.mapper.mappedBytes - region.length }
    machine := s.machine.unmap os region.start region.length }

/-- Gives regions back, one after the other. -/
def unmapAll (os : Platform σ) (s : Supply σ) (regions : List Region) : Supply σ :=
  regions.foldl (fun s region => s.unmap os region) s

end Supply

end NumaHeap
