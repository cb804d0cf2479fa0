import NumaHeap.Platform.Basic

/-!
A deterministic platform. Addresses come from a cursor that never goes back, so that none is used
twice, and each service can be switched off while the platform is in use.
-/

namespace NumaHeap.Simulated

theorem pageExponent_lt : 12 < 64 := by decide

/-- What stays fixed while the platform is in use. -/
structure Settings where
  pageSize : PowerOfTwo := ⟨12, pageExponent_lt⟩
  hugePageSize : PowerOfTwo := ⟨16, by decide⟩
  topology : Topology := .singleNode
  /-- The most bytes that may be mapped at once. -/
  memoryLimit : Nat := 67108864
  /-- Mappings end no later than here. -/
  addressLimit : Nat := 4294967296

/-- What may be changed while the platform is in use. -/
structure Switches where
  /-- The CPU that all threads run on. -/
  cpu : Option Nat := some 0
  hugeAvailable : Bool := true
  failHuge : Bool := false
  failBind : Option BindError := none
  /-- How many more mappings succeed, if there is a limit. -/
  mapsLeft : Option Nat := none
  /-- Why mappings fail once none is left. -/
  mapError : MapError := .outOfMemory

/-- A mapping in use. -/
structure Mapping where
  start : Nat
  length : Nat
  pages : PageKind
deriving DecidableEq

/-- The state of the platform. -/
structure State where
  switches : Switches
  cursor : Nat := 65536
  live : List Mapping := []
  maps : Nat := 0
  binds : Nat := 0

/-- Bytes mapped at present. -/
def State.liveBytes (s : State) : Nat := (s.live.map (·.length)).sum

/-- Mappings of huge pages at present. -/
def State.liveHuge (s : State) : Nat := s.live.countP (·.pages = .huge)

/-- Maps at the cursor, rounded up to the page size, if the switches and the limits allow it. -/
def map (settings : Settings) (s : State) (length : Nat) (pages : PageKind) :
    Except MapError Nat × State :=
  let page := match pages with
    | .normal => settings.pageSize
    | .huge => settings.hugePageSize
  let start := s.cursor + page.padding s.cursor
  if pages = .huge ∧ s.switches.failHuge then (.error .hugePagesUnavailable, s)
  else if s.switches.mapsLeft = some 0 then (.error s.switches.mapError, s)
  else if settings.memoryLimit < s.liveBytes + length ∨ settings.addressLimit < start + length then
    (.error .outOfMemory, s)
  else
    (.ok start,
      { s with
        switches := { s.switches with mapsLeft := s.switches.mapsLeft.map (· - 1) }
        cursor := start + length
        live := ⟨start, length, pages⟩ :: s.live
        maps := s.maps + 1 })

/-- Forgets the mapping at an address. -/
def unmap (s : State) (start length : Nat) : State :=
  { s with live := s.live.eraseP fun m => m.start = start ∧ m.length = length }

/-- Places memory or a thread on a node, unless binding is switched off. -/
def place (settings : Settings) (s : State) (node : Nat) : Except BindError Unit × State :=
  match s.switches.failBind with
  | some cause => (.error cause, s)
  | none =>
    if settings.topology.contains node then (.ok (), { s with binds := s.binds + 1 })
    else (.error (.invalidNode node), s)

/-- The platform with fixed settings. Its clock stands still. -/
def platform (settings : Settings) : Platform State where
  pageSize := settings.pageSize
  hugePageSize := settings.hugePageSize
  topology := settings.topology
  hugePagesAvailable s := s.switches.hugeAvailable
  currentCpu? s _ := s.switches.cpu
  now _ := 0
  map := map settings
  unmap := unmap
  bind s _ _ node := place settings s node
  bindThread s _ node := place settings s node

/-- The machine before anything is mapped. -/
def machine (switches : Switches) : Machine State := ⟨{ switches }, .zeros⟩

/-- A host with a single node and plenty of memory, where nothing can be bound. -/
def host : Settings where
  hugePageSize := ⟨21, by decide⟩
  memoryLimit := 140737488355328
  addressLimit := 140737488355328

/-- The switches of that host: no huge pages and no binding. -/
def hostSwitches : Switches := { hugeAvailable := false, failBind := some .unavailable }

end NumaHeap.Simulated
