import NumaHeap.Proofs.Platform.Simulated
import NumaHeap.Proofs.Slab.World
import Mathlib.Data.List.Find

/-!
The slabs as stacks. For each class on each node there is a stack of the objects that were freed and
not used again. What a request is answered follows from the stacks, from what is left to carve and
from whether a region can be mapped; the links in memory and the lists of the cells only carry this
out.
-/

namespace NumaHeap.Slab

variable {σ : Type} {os : Platform σ} {contract : os.Contract} {s : Slab} {c : Cell}
  {thread : ThreadId} {size node sizeClass object : Nat} {wish : Option Nat}

theorem FreeList.Linked.head_eq {m : Memory} {head : Option Nat} {objects : List Nat}
    (linked : FreeList.Linked m head objects) : head = objects.head? := by
  cases objects with
  | nil => exact linked
  | cons => exact linked.1

/-- The first number that is large enough. -/
theorem find?_range_le (least count : Nat) :
    (List.range count).find? (fun i => decide (least ≤ i)) =
      if least < count then some least else none := by
  split
  · next inside =>
    rw [List.find?_range_eq_some]
    simpa using inside
  · next outside =>
    rw [List.find?_range_eq_none]
    intro i below
    simp only [Bool.not_eq_true', decide_eq_false_iff_not]
    omega

/-- A request of a class on an existing node is served. -/
theorem allocate_eq_serve (machine : Machine σ) (fits : Size.slabClass? size = some sizeClass)
    (there : os.topology.contains (wish.getD (s.localNode os machine thread)) = true) :
    s.allocate os machine thread size wish =
      s.serve os machine (wish.getD (s.localNode os machine thread)) sizeClass := by
  obtain ⟨-, positive⟩ := Size.le_slabObject fits
  simp [allocate, fits, there, Nat.ne_of_gt positive]

/-- An object that another node serves is counted. -/
theorem fallbacks_eq {machine later : Machine σ} {after : Slab} {placement : Arena.Placement}
    (outcome : Outcome os s machine size node (.ok placement) after later) :
    after.remoteFallbacks = s.remoteFallbacks + if placement.node = node then 0 else 1 := by
  cases outcome with
  | here => simp [setCell]
  | @elsewhere sizeClass c last supply cause placement left memory fits found denied popped =>
    have told := popFirst?_map { s with mapper := supply.mapper } supply.machine.memory sizeClass
      (otherNodes os.topology node)
    obtain ⟨c', free, -, -, rfl⟩ := popFirst?_spec popped
    rw [popped, Option.map_some] at told
    obtain ⟨other, asked, top⟩ := List.exists_of_findSome?_eq_some told.symm
    obtain ⟨object, -, rfl⟩ := Option.map_eq_some_iff.1 top
    have different : other ≠ node := bne_iff_ne.1 (List.mem_filter.1 asked).2
    simp [setCell, different]

/-- There is a cell for each class on each node. -/
theorem Counted.cell (counted : s.Counted os) (there : os.topology.contains node = true)
    (bounded : sizeClass < Size.slabClassCount) : ∃ c, s.cell? node sizeClass = some c := by
  rw [Topology.contains, decide_eq_true_eq] at there
  have inside : cellIndex node sizeClass < s.cells.length := by
    rw [counted]
    unfold cellIndex Size.slabClassCount at *
    omega
  exact ⟨_, List.getElem?_eq_getElem inside⟩

/-- The regions of a class on a node, latest first. -/
def regionsAt (s : Slab) (node sizeClass : Nat) : List Region :=
  (s.cell? node sizeClass).elim [] (·.regions)

/-- One cell is replaced, and with it the regions of its class on its node. -/
theorem regionsAt_set {after : Slab} {last : Cell} {home place : Nat}
    (found : s.cell? node sizeClass = some c) (bounded : sizeClass < Size.slabClassCount)
    (cells : after.cells = s.cells.set (cellIndex node sizeClass) last)
    (small : place < Size.slabClassCount) :
    after.regionsAt home place =
      if home = node ∧ place = sizeClass then last.regions else s.regionsAt home place := by
  rw [regionsAt, cell?_set found bounded cells small]
  split <;> rfl

namespace World

variable {w : World σ}

/-- The next object of the latest region of a class on a node, if one was never handed out. -/
def next? (w : World σ) (node sizeClass : Nat) : Option Nat :=
  (w.slab.regionsAt node sizeClass).head?.bind (w.history.uncarved? · (Size.slabObject sizeClass))

/-- What comes of mapping one more region for a class on a node. -/
def mapping (os : Platform σ) (w : World σ) (node sizeClass : Nat) : Except MapError Region :=
  (Supply.map os ⟨w.slab.mapper, w.machine⟩
    (Cell.regionLength os.pageSize (Size.slabObject sizeClass)) node).1

/-- The top of the first stack of a class on another node. -/
def elsewhere? (os : Platform σ) (w : World σ) (node sizeClass : Nat) : Option Arena.Placement :=
  (otherNodes os.topology node).findSome? fun other =>
    (w.history.stack other sizeClass).head?.map (Arena.Placement.mk · other)

/-- The answer to a request of a class on a node: the top of its stack, else the next object to carve,
else the first one of a new region, else the top of the first stack on another node. -/
def forecast (os : Platform σ) (w : World σ) (node sizeClass : Nat) :
    Except AllocError Arena.Placement :=
  match (w.history.stack node sizeClass).head?, w.next? node sizeClass with
  | some object, _ => .ok ⟨object, node⟩
  | none, some object => .ok ⟨object, node⟩
  | none, none =>
    match w.mapping os node sizeClass with
    | .ok region => .ok ⟨region.start, node⟩
    | .error cause =>
      match w.elsewhere? os node sizeClass with
      | some placement => .ok placement
      | none => .error (.map cause)

/-- The region that is mapped for a request of a class on a node: none as long as there is an object on
its stack or in its latest region. -/
def mapped? (os : Platform σ) (w : World σ) (node sizeClass : Nat) : Option Region :=
  match (w.history.stack node sizeClass).head?, w.next? node sizeClass with
  | none, none => (w.mapping os node sizeClass).toOption
  | _, _ => none

/-- Each free list holds its stack, link for link. -/
def Lists (w : World σ) : Prop :=
  ∀ {node sizeClass : Nat} {c : Cell}, sizeClass < Size.slabClassCount →
    w.slab.cell? node sizeClass = some c →
      c.free.Holds w.machine.memory (w.history.stack node sizeClass)

/-- A request of a class on a node is answered as forecast, and changes nothing else. -/
structure Answered (os : Platform σ) (w : World σ) (node sizeClass : Nat)
    (answer : Except AllocError Arena.Placement) (after : World σ) : Prop where
  forecast : answer = w.forecast os node sizeClass
  lists : after.Lists
  /-- What is served is taken off its stack, if there was one. -/
  popped : ∀ placement, answer = .ok placement → ∀ home place,
    after.history.stack home place =
      if home = placement.node ∧ place = sizeClass then (w.history.stack home place).tail
      else w.history.stack home place
  regions : ∀ home place, place < Size.slabClassCount →
    after.slab.regionsAt home place =
      if home = node ∧ place = sizeClass then
        (w.mapped? os node sizeClass).toList ++ w.slab.regionsAt home place
      else w.slab.regionsAt home place
  fallbacks : ∀ placement, answer = .ok placement →
    after.slab.remoteFallbacks = w.slab.remoteFallbacks + if placement.node = node then 0 else 1
  fails_iff : (∃ cause, answer = .error (.map cause)) ↔
    w.next? node sizeClass = none ∧ (∃ cause, w.mapping os node sizeClass = .error cause) ∧
      ∀ home, w.history.stack home sizeClass = []
  /-- Of a failure, only the count of attempts with huge pages tells. -/
  unchanged : ∀ error, answer = .error error →
    after.history = w.history ∧ after.machine.memory = w.machine.memory ∧
      (os.Harmless → after.machine = w.machine) ∧
      after.slab = w.slab.withFallbacks (w.slab.mapper.hugeFallbacks +
        (Supply.attemptsHuge os ⟨w.slab.mapper, w.machine⟩
          (Cell.regionLength os.pageSize (Size.slabObject sizeClass))).toNat)

/-- The slabs do with their objects what the stacks call for. -/
structure RefinesStacks (os : Platform σ) (w : World σ) : Prop where
  origins : ∀ {node sizeClass object : Nat},
    w.history.origin? object = some (node, sizeClass) ↔ w.slab.Carved node sizeClass object
  lists : w.Lists
  allocated : ∀ (thread : ThreadId) {size sizeClass : Nat} (wish : Option Nat),
    Size.slabClass? size = some sizeClass →
      let node := wish.getD (w.slab.localNode os w.machine thread)
      os.topology.contains node = true →
        w.Answered os node sizeClass (w.allocate os thread size wish).1
          (w.allocate os thread size wish).2
  /-- An object that is freed is put on the stack of the class and the node it was carved from. -/
  freed : ∀ x ∈ w.history.live, ∃ node sizeClass,
    Size.slabClass? x.length = some sizeClass ∧ w.slab.Carved node sizeClass x.start ∧
      ∀ thread, (w.free os thread x.start x.length).1 = .ok () ∧
        (w.free os thread x.start x.length).2.Lists ∧ ∀ home place,
          (w.free os thread x.start x.length).2.history.stack home place =
            if home = node ∧ place = sizeClass then x.start :: w.history.stack home place
            else w.history.stack home place

namespace Tracked

variable (tracked : Tracked contract w)
include tracked

theorem lists : w.Lists := by
  intro node sizeClass c bounded found
  have holds := (tracked.stocked _ c found).free
  rwa [History.stock_cellIndex bounded] at holds

theorem top?_eq (bounded : sizeClass < Size.slabClassCount) (node : Nat) :
    w.slab.top? node sizeClass = (w.history.stack node sizeClass).head? := by
  cases found : w.slab.cell? node sizeClass with
  | some c => rw [top?, found, Option.bind_some, (tracked.lists bounded found).linked.head_eq]
  | none =>
    cases stack : w.history.stack node sizeClass with
    | nil => simp [top?, found]
    | cons object rest =>
      have waits : object ∈ w.history.stack node sizeClass := stack ▸ List.mem_cons_self ..
      obtain ⟨-, c, there, -⟩ := tracked.homes.1 (History.origin?_of_mem_stack waits)
      rw [found] at there
      cases there

/-- An object of the latest region was handed out exactly if the carved part reaches beyond it. -/
theorem origin?_eq_none_iff {region : Region} {count : Nat}
    (bounded : sizeClass < Size.slabClassCount) (found : w.slab.cell? node sizeClass = some c)
    (latest : c.regions.head? = some region)
    (inside : count < region.length / c.objectSize) :
    w.history.origin? (region.start + count * c.objectSize) = none ↔
      c.carved / c.objectSize ≤ count := by
  have least := tracked.sound.least found
  have positive : 0 < c.objectSize := Nat.lt_of_lt_of_le (by decide) least
  have whole := (tracked.stocked _ c found).whole
  have member := List.mem_of_mem_head? latest
  have fits : (count + 1) * c.objectSize ≤ region.length :=
    (Nat.le_div_iff_mul_le positive).1 inside
  rw [Nat.add_one_mul] at fits
  constructor
  · intro missing
    by_contra before
    have carved := Nat.lt_of_not_le before
    rw [← Cell.mul_add_le_mul_iff positive, Nat.div_mul_cancel whole] at carved
    have slot : c.Slot (region.start + count * c.objectSize) := by
      refine ⟨region, member, ⟨count, rfl⟩, ?_, fun _ => ?_⟩
      · unfold Region.stop
        omega
      · omega
    rw [tracked.homes.2 ⟨bounded, c, found, slot⟩] at missing
    cases missing
  · intro beyond
    cases origin : w.history.origin? (region.start + count * c.objectSize) with
    | none => rfl
    | some place =>
      -- The object would lie in this region, hence be carved from this cell.
      obtain ⟨-, d, there, slot⟩ := tracked.homes.1 (origin : _ = some (place.1, place.2))
      have start : region.extent.Holds (region.start + count * c.objectSize) := by
        refine ⟨Nat.le_add_right .., ?_⟩
        simp only [Region.extent, Extent.stop]
        omega
      have owns := Cell.owns_iff.2 ⟨region, member, start⟩
      have same := cell_unique tracked.custody found there owns
        (slot.owns (tracked.sound.least there))
      rw [cell?, ← same] at there
      cases Option.some.inj (found.symm.trans there)
      have uncarved : c.Uncarved (region.start + count * c.objectSize) := by
        have lower := Nat.mul_le_mul_right c.objectSize beyond
        rw [Nat.div_mul_cancel whole] at lower
        refine ⟨region, latest, by omega, ?_⟩
        unfold Region.stop
        omega
      have inner := tracked.custody.sublist (regions_sublist found)
      have first : (c.slot (region.start + count * c.objectSize)).Holds
          (region.start + count * c.objectSize) := Extent.holds_mk.2 ⟨Nat.le_refl _, by omega⟩
      exact absurd uncarved (slot.not_uncarved inner first)

/-- The next object to carve is the one at which the carved part ends. -/
theorem next?_eq (bounded : sizeClass < Size.slabClassCount)
    (found : w.slab.cell? node sizeClass = some c) :
    w.next? node sizeClass = c.roomy?.map (·.start + c.carved) := by
  have positive : 0 < c.objectSize :=
    Nat.lt_of_lt_of_le (by decide) (tracked.sound.least found)
  have whole := (tracked.stocked _ c found).whole
  rw [next?, regionsAt, found, Option.elim_some, Cell.roomy?, ← tracked.sound.objectSize found bounded]
  cases latest : c.regions.head? with
  | none => rfl
  | some region =>
    have missing : ∀ count ∈ List.range (region.length / c.objectSize),
        (w.history.origin? (region.start + count * c.objectSize)).isNone =
          decide (c.carved / c.objectSize ≤ count) := by
      intro count member
      rw [Bool.eq_iff_iff, Option.isNone_iff_eq_none, decide_eq_true_eq]
      exact tracked.origin?_eq_none_iff bounded found latest (List.mem_range.1 member)
    have first : w.history.uncarved? region c.objectSize =
        ((List.range (region.length / c.objectSize)).find? fun count =>
          decide (c.carved / c.objectSize ≤ count)).map (region.start + · * c.objectSize) := by
      rw [History.uncarved?, List.find?_map]
      exact congrArg _ (List.find?_congr missing)
    have room : c.carved / c.objectSize < region.length / c.objectSize ↔
        c.carved + c.objectSize ≤ region.length := by
      rw [← Nat.add_one_le_iff, Nat.le_div_iff_mul_le positive, Nat.add_one_mul,
        Nat.div_mul_cancel whole]
    rw [Option.bind_some, first, find?_range_le, Option.filter_some]
    by_cases enough : c.carved + c.objectSize ≤ region.length
    · simp [room, enough, Nat.div_mul_cancel whole]
    · simp [room, enough]

theorem node_eq (bounded : sizeClass < Size.slabClassCount)
    (found : w.slab.cell? node sizeClass = some c) : c.node = node := by
  rw [tracked.nodes _ c found]
  unfold cellIndex Size.slabClassCount at *
  omega

/-- The stacks, the regions and the platform decide what is answered. -/
theorem answer_eq (there : os.topology.contains node = true)
    (bounded : sizeClass < Size.slabClassCount) :
    (w.slab.serve os w.machine node sizeClass).1 = w.forecast os node sizeClass := by
  obtain ⟨c, found⟩ := tracked.counted.cell there bounded
  have top := tracked.top?_eq bounded node
  rw [top?, found, Option.bind_some] at top
  rw [serve_answer found, Cell.allocate_answer, top, tracked.node_eq bounded found,
    tracked.sound.objectSize found bounded, forecast, tracked.next?_eq bounded found, mapping]
  cases (w.history.stack node sizeClass).head? with
  | some object => rfl
  | none =>
    cases c.roomy? with
    | some region => rfl
    | none =>
      cases (Supply.map os ⟨w.slab.mapper, w.machine⟩
        (Cell.regionLength os.pageSize (Size.slabObject sizeClass)) node).1 with
      | ok region => rfl
      | error cause =>
        simp only [answer, Except.map, tracked.top?_eq bounded, Option.map_none, elsewhere?]
        split <;> simp [*]

/-- The cell of a request has the region that is mapped for it. -/
theorem allocate_regions (bounded : sizeClass < Size.slabClassCount)
    (found : w.slab.cell? node sizeClass = some c) :
    (c.allocate os ⟨w.slab.mapper, w.machine⟩).2.1.regions =
      (w.mapped? os node sizeClass).toList ++ c.regions := by
  have top := tracked.top?_eq bounded node
  rw [top?, found, Option.bind_some] at top
  have asked : w.mapping os node sizeClass = (Supply.map os ⟨w.slab.mapper, w.machine⟩
      (Cell.regionLength os.pageSize c.objectSize) c.node).1 := by
    rw [tracked.node_eq bounded found, tracked.sound.objectSize found bounded, mapping]
  rw [mapped?, ← top, tracked.next?_eq bounded found, asked]
  cases head : c.free.head with
  | some object => simp [Cell.allocate, Cell.pop?, FreeList.pop?, head]
  | none =>
    simp only [Cell.allocate, Cell.pop?, FreeList.pop?, head, Option.map_none, Cell.ensureRoom]
    cases c.roomy? with
    | some region => rfl
    | none =>
      cases Supply.map os ⟨w.slab.mapper, w.machine⟩
        (Cell.regionLength os.pageSize c.objectSize) c.node with
      | mk answer later => cases answer <;> rfl

/-- A stack that is not empty belongs to a node that is asked. -/
theorem asked (waits : object ∈ w.history.stack node sizeClass) (here : Nat) :
    node ∈ here :: otherNodes os.topology here := by
  obtain ⟨-, c, found, -⟩ := tracked.homes.1 (History.origin?_of_mem_stack waits)
  exact tracked.counted.asked found here

/-- No other node can help if all its stacks are empty. -/
theorem elsewhere?_eq_none_iff (node sizeClass : Nat) :
    w.elsewhere? os node sizeClass = none ↔
      ∀ home, home ≠ node → w.history.stack home sizeClass = [] := by
  rw [elsewhere?, List.findSome?_eq_none_iff]
  simp only [Option.map_eq_none_iff, List.head?_eq_none_iff]
  constructor
  · intro others home different
    by_contra waiting
    obtain ⟨object, waits⟩ := List.exists_mem_of_ne_nil _ waiting
    exact waiting (others home ((List.mem_cons.1 (tracked.asked waits node)).resolve_left different))
  · intro empty home other
    exact empty home (bne_iff_ne.1 (List.mem_filter.1 other).2)

theorem forecast_fails_iff (node sizeClass : Nat) :
    (∃ cause, w.forecast os node sizeClass = .error (.map cause)) ↔
      w.next? node sizeClass = none ∧ (∃ cause, w.mapping os node sizeClass = .error cause) ∧
        ∀ home, w.history.stack home sizeClass = [] := by
  constructor
  · rintro ⟨cause, failed⟩
    unfold forecast at failed
    split at failed
    · cases failed
    · cases failed
    · next top next =>
      split at failed
      · cases failed
      · next reason unmapped =>
        split at failed
        · cases failed
        · next others =>
          rw [tracked.elsewhere?_eq_none_iff] at others
          refine ⟨next, ⟨reason, unmapped⟩, fun home => ?_⟩
          by_cases here : home = node
          · rw [here, ← List.head?_eq_none_iff, top]
          · exact others home here
  · rintro ⟨next, ⟨cause, unmapped⟩, empty⟩
    have others := (tracked.elsewhere?_eq_none_iff node sizeClass).2 fun home _ => empty home
    exact ⟨cause, by simp [forecast, next, unmapped, empty, others]⟩

end Tracked

theorem forecast_error {error : AllocError} (failed : w.forecast os node sizeClass = .error error) :
    ∃ cause, error = .map cause := by
  unfold forecast at failed
  split at failed
  · cases failed
  · cases failed
  · split at failed
    · cases failed
    · next cause _ =>
      split at failed
      · cases failed
      · cases failed
        exact ⟨cause, rfl⟩

/-- What is forecast is on top of its stack, or its stack is empty. -/
theorem forecast_ok {placement : Arena.Placement}
    (served : w.forecast os node sizeClass = .ok placement) :
    (w.history.stack placement.node sizeClass).head? = some placement.address ∨
      w.history.stack placement.node sizeClass = [] := by
  unfold forecast at served
  split at served
  · next object top =>
    cases served
    exact .inl top
  · next object top _ =>
    cases served
    exact .inr (List.head?_eq_none_iff.1 top)
  · next top _ =>
    split at served
    · cases served
      exact .inr (List.head?_eq_none_iff.1 top)
    · split at served
      · next found =>
        cases served
        obtain ⟨other, -, there⟩ := List.exists_of_findSome?_eq_some found
        obtain ⟨object, head, rfl⟩ := Option.map_eq_some_iff.1 there
        exact .inl head
      · cases served

namespace Tracked

variable (tracked : Tracked contract w)
include tracked

/-- What is served is popped. -/
theorem stack_served {slab : Slab} {machine : Machine σ} {placement : Arena.Placement}
    {new : List Region} (fits : Size.slabClass? size = some sizeClass)
    (serves : Serves os sizeClass w.slab w.machine (.ok placement) slab machine new)
    (served : w.forecast os node sizeClass = .ok placement) (home place : Nat) :
    History.stack (.served placement size :: w.history) home place =
      if home = placement.node ∧ place = sizeClass then (w.history.stack home place).tail
      else w.history.stack home place := by
  have bounded := Size.slabClass_lt fits
  have origin := tracked.origin?_served fits serves
  split
  · next same =>
    obtain ⟨rfl, rfl⟩ := same
    rcases forecast_ok served with top | empty
    · obtain ⟨rest, stack⟩ := List.head?_eq_some_iff.1 top
      obtain ⟨c, found⟩ : ∃ c, w.slab.cell? placement.node place = some c := by
        have waits := stack ▸ List.mem_cons_self ..
        obtain ⟨-, c, found, -⟩ := tracked.homes.1 (History.origin?_of_mem_stack waits)
        exact ⟨c, found⟩
      have once := (tracked.stocked _ c found).nodup
      rw [History.stock_cellIndex bounded] at once
      rw [History.stack_served_of_top stack once, stack, List.tail_cons]
    · simp [History.stack, empty]
  · next different =>
    apply History.stack_served_of_not_mem
    intro waits
    have before := History.origin?_of_mem_stack waits
    rw [History.origin?_served_of_some before, Option.some.injEq, Prod.mk.injEq] at origin
    exact different origin

/-- A request that fails was refused a region. -/
theorem mapping_of_error {last : Cell} {supply : Supply σ} {cause : MapError}
    (bounded : sizeClass < Size.slabClassCount) (found : w.slab.cell? node sizeClass = some c)
    (denied : c.allocate os ⟨w.slab.mapper, w.machine⟩ = (.error cause, last, supply)) :
    Supply.map os ⟨w.slab.mapper, w.machine⟩
        (Cell.regionLength os.pageSize (Size.slabObject sizeClass)) node = (.error cause, supply) ∧
      w.mapped? os node sizeClass = none := by
  obtain ⟨-, -, refused⟩ := Cell.allocate_error denied
  rw [tracked.node_eq bounded found, tracked.sound.objectSize found bounded] at refused
  refine ⟨refused, ?_⟩
  unfold mapped?
  split
  · simp [mapping, refused, Except.toOption]
  · rfl

/-- A region is added where it is mapped for a request, and nowhere else. -/
theorem regions_eq {answer : Except AllocError Arena.Placement} {slab : Slab} {machine : Machine σ}
    (fits : Size.slabClass? size = some sizeClass) (told : answer = w.forecast os node sizeClass)
    (outcome : Outcome os w.slab w.machine size node answer slab machine) {home place : Nat}
    (small : place < Size.slabClassCount) :
    slab.regionsAt home place =
      if home = node ∧ place = sizeClass then
        (w.mapped? os node sizeClass).toList ++ w.slab.regionsAt home place
      else w.slab.regionsAt home place := by
  have bounded := Size.slabClass_lt fits
  cases outcome with
  | invalid unmapped =>
    obtain ⟨cause, same⟩ := forecast_error told.symm
    exact absurd same (unmapped cause)
  | here fits' found answered =>
    cases Option.some.inj (fits.symm.trans fits')
    have regions := tracked.allocate_regions bounded found
    rw [answered] at regions
    rw [regionsAt_set found bounded rfl small, regions]
    split
    · next same =>
      obtain ⟨rfl, rfl⟩ := same
      simp [regionsAt, found]
    · rfl
  | elsewhere fits' found denied popped =>
    cases Option.some.inj (fits.symm.trans fits')
    obtain ⟨c', free, there, -, rfl⟩ := popFirst?_spec popped
    rw [(tracked.mapping_of_error bounded found denied).2, regionsAt_set there bounded rfl small]
    split
    · next same =>
      obtain ⟨rfl, rfl⟩ := same
      have unchanged : w.slab.regionsAt _ place = c'.regions := congrArg (·.elim [] (·.regions)) there
      simp [unchanged]
    · simp
      rfl
  | exhausted fits' found denied none =>
    cases Option.some.inj (fits.symm.trans fits')
    rw [(tracked.mapping_of_error bounded found denied).2]
    simp
    rfl

theorem answered (fits : Size.slabClass? size = some sizeClass)
    (there : os.topology.contains (wish.getD (w.slab.localNode os w.machine thread)) = true) :
    w.Answered os (wish.getD (w.slab.localNode os w.machine thread)) sizeClass
      (w.allocate os thread size wish).1 (w.allocate os thread size wish).2 := by
  have bounded := Size.slabClass_lt fits
  have next := tracked.allocate thread size wish
  have told := congrArg Prod.fst (allocate_eq_serve w.machine fits there)
  rw [tracked.answer_eq there bounded] at told
  cases served : w.slab.allocate os w.machine thread size wish with
  | mk answer rest =>
    obtain ⟨slab, machine⟩ := rest
    have outcome := allocate_outcome served
    rw [served] at told
    have fails := tracked.forecast_fails_iff (wish.getD (w.slab.localNode os w.machine thread))
      sizeClass
    rw [← told] at fails
    simp only [World.allocate, served] at next ⊢
    cases answer with
    | ok placement =>
      obtain ⟨same, new, serves, class_eq⟩ := allocate_spec tracked.sound served
      cases Option.some.inj (fits.symm.trans (class_eq placement rfl))
      refine
        { forecast := told
          lists := next.lists
          popped := ?_
          regions := fun _ _ => tracked.regions_eq fits told outcome
          fallbacks := ?_
          fails_iff := fails
          unchanged := nofun }
      · rintro _ ⟨⟩
        exact tracked.stack_served fits serves told.symm
      · rintro _ ⟨⟩
        exact fallbacks_eq outcome
    | error error =>
      refine
        { forecast := told
          lists := next.lists
          popped := nofun
          regions := fun _ _ => tracked.regions_eq fits told outcome
          fallbacks := nofun
          fails_iff := fails
          unchanged := ?_ }
      rintro _ -
      cases outcome with
      | invalid unmapped =>
        obtain ⟨cause, same⟩ := forecast_error told.symm
        exact absurd same (unmapped cause)
      | exhausted fits' found denied none =>
        cases Option.some.inj (fits.symm.trans fits')
        obtain ⟨refused, -⟩ := tracked.mapping_of_error bounded found denied
        obtain ⟨memory, mapper⟩ := Supply.map_failed refused
        refine ⟨rfl, memory, fun harmless => (Supply.map_denied harmless refused).1, ?_⟩
        rw [withFallbacks, mapper]

end Tracked

/-- Whatever clients, the platform and its other users have done, the slabs answer and take back as the
stacks call for. -/
theorem stacks_refined (reached : w.Reached contract) : w.RefinesStacks os where
  origins := reached.tracked.homes
  lists := reached.tracked.lists
  allocated _ _ _ wish fits there := reached.tracked.answered fits there
  freed x held := by
    obtain ⟨node, sizeClass, known, fits⟩ := reached.tracked.known x held
    refine ⟨node, sizeClass, fits, reached.tracked.homes.1 known, fun thread => ?_⟩
    obtain ⟨_, _, _, _, _, _, _, freed⟩ := reached.tracked.free_eq held thread
    have next := reached.tracked.free held thread
    rw [freed] at next ⊢
    refine ⟨rfl, next.lists, fun home place => ?_⟩
    simp only [History.stack, known, Option.some.injEq, Prod.mk.injEq, eq_comm]

/-- Two objects of one class are freed by different threads, and wait with the later one on top. -/
theorem stacks_refined_two_freed :
    ∃ w : World Simulated.State,
      w.Reached (Simulated.contract {} (by decide) (by decide)) ∧
        w.history.stack 0 2 = [65568, 65536] ∧ w.RefinesStacks (Simulated.platform {}) := by
  let os := Simulated.platform {}
  let new : World Simulated.State :=
    { slab := .create os.topology false true, machine := Simulated.machine {} }
  let held := ((new.allocate os 0 24 none).2.allocate os 1 24 none).2
  let one := (held.free os 1 65536 24).2
  let two := (one.free os 0 65568 24).2
  have created : new.Reached (Simulated.contract {} (by decide) (by decide)) :=
    .create false true (Simulated.machine_sound {})
  have first : one.Reached (Simulated.contract {} (by decide) (by decide)) :=
    .free 1 (x := ⟨65536, 24⟩) (.allocate 1 24 none (.allocate 0 24 none created))
      (by decide +kernel)
  have second : two.Reached (Simulated.contract {} (by decide) (by decide)) :=
    .free 0 (x := ⟨65568, 24⟩) first (by decide +kernel)
  exact ⟨two, second, by decide +kernel, stacks_refined second⟩

/-- A request that fails for want of a mapping is not without a trace: an attempt with huge pages is
counted. -/
theorem failure_leaves_trace :
    ¬∀ w : World Simulated.State, w.Reached (Simulated.contract {} (by decide) (by decide)) →
      ∀ thread size wish cause,
        (w.allocate (Simulated.platform {}) thread size wish).1 = .error (.map cause) →
          (w.allocate (Simulated.platform {}) thread size wish).2.slab.stats = w.slab.stats := by
  intro traceless
  let os := Simulated.platform {}
  let new : World Simulated.State :=
    { slab := .create os.topology true true, machine := Simulated.machine { mapsLeft := some 0 } }
  have created : new.Reached (Simulated.contract {} (by decide) (by decide)) :=
    .create true true (Simulated.machine_sound _)
  have same := traceless new created 0 65536 none .outOfMemory (by decide +kernel)
  exact absurd (congrArg Stats.hugeFallbacks same) (by decide +kernel)

end World

end NumaHeap.Slab
