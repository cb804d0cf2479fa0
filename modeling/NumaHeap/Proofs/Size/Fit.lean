import NumaHeap.Proofs.Size.Multiple

/-!
Least fit. An arena sets aside the least slot that holds a size, where slots are the entries of its
table and whole cache lines above them; a slab holds the least object of its table. So what is set aside
is never too small, grows with the size, and is set aside for itself. Tables are ascending, so that
neither bisecting one nor counting bits can miss the entry that a search from the start would find.
-/

namespace NumaHeap.Size

variable {size slot sizeClass : Nat}

/-- The first entry of an ascending table that is large enough is the least one. -/
theorem isLeast_of_find? {table : List Nat} {entry : Nat} (ascending : table.Pairwise (· < ·))
    (found : table.find? (size ≤ ·) = some entry) :
    IsLeast {entry | entry ∈ table ∧ size ≤ entry} entry := by
  obtain ⟨enough, before, behind, rfl, small⟩ := List.find?_eq_some_iff_append.1 found
  refine ⟨⟨by simp, of_decide_eq_true enough⟩, ?_⟩
  rintro other ⟨member, large⟩
  rcases List.mem_append.1 member with earlier | later
  · have short := small other earlier
    rw [Bool.not_eq_true', decide_eq_false_iff_not] at short
    exact absurd large short
  · have order := (List.pairwise_cons.1 (List.pairwise_append.1 ascending).2.1).1
    rcases List.mem_cons.1 later with rfl | beyond
    · exact Nat.le_refl _
    · exact Nat.le_of_lt (order other beyond)

/-- So a search from the start finds the place of the least entry that is large enough. -/
theorem findIdx?_of_isLeast {table : List Nat} {entry place : Nat}
    (ascending : table.Pairwise (· < ·)) (there : table[place]? = some entry)
    (least : IsLeast {entry | entry ∈ table ∧ size ≤ entry} entry) :
    table.findIdx? (size ≤ ·) = some place := by
  obtain ⟨inside, rfl⟩ := List.getElem?_eq_some_iff.1 there
  refine List.findIdx?_eq_some_iff_getElem.2 ⟨inside, decide_eq_true least.1.2, fun other before => ?_⟩
  have below := List.pairwise_iff_getElem.1 ascending other place (by omega) inside before
  rw [decide_eq_true_eq]
  intro large
  exact Nat.not_le_of_lt below (least.2 ⟨List.getElem_mem _, large⟩)

/-! ### Bisection -/

/-- Bisects the places from one up to another: the test in the middle says which half goes. -/
def bisect (below : Nat → Bool) (low high : Nat) : Nat :=
  if low < high then
    let middle := (low + high) / 2
    if below middle then bisect below (middle + 1) high else bisect below low middle
  else low
termination_by high - low

/-- Bisection ends at the place where the test starts to fail. -/
theorem bisect_eq {below : Nat → Bool} {cut low high : Nat}
    (before : ∀ place < cut, below place = true)
    (behind : ∀ place, cut ≤ place → place < high → below place = false)
    (above : low ≤ cut) (within : cut ≤ high) : bisect below low high = cut := by
  fun_induction bisect below low high with
  | case1 low high nonempty middle passes ih =>
    -- The middle passes, so it lies before the cut, and the cut in the upper half.
    have past : middle < cut := by
      refine Nat.lt_of_not_le fun reached => ?_
      have fails := behind middle reached (by omega)
      rw [passes] at fails
      cases fails
    exact ih behind past within
  | case2 low high nonempty middle fails ih =>
    have reached : cut ≤ middle := Nat.le_of_not_lt fun past => fails (before middle past)
    exact ih (fun place after short => behind place after (by omega)) above reached
  | case3 low high closed => omega

/-- On an ascending table bisection and a search from the start end at the same place. -/
theorem bisect_table {table : List Nat} (ascending : table.Pairwise (· < ·)) (size : Nat) :
    bisect (fun place => table[place]?.any (· < size)) 0 table.length =
      table.findIdx (size ≤ ·) := by
  refine bisect_eq (fun place before => ?_) (fun place reached inside => ?_) (Nat.zero_le _)
    List.findIdx_le_length
  · have inside : place < table.length := Nat.lt_of_lt_of_le before List.findIdx_le_length
    have short := List.not_of_lt_findIdx before
    rw [decide_eq_false_iff_not] at short
    rw [List.getElem?_eq_getElem inside, Option.any_some, decide_eq_true_eq]
    exact Nat.lt_of_not_le short
  · have found : table.findIdx (size ≤ ·) < table.length := Nat.lt_of_le_of_lt reached inside
    have enough : size ≤ table[table.findIdx (size ≤ ·)] :=
      of_decide_eq_true (List.findIdx_getElem (w := found))
    have order : table[table.findIdx (size ≤ ·)] ≤ table[place] := by
      rcases Nat.lt_or_eq_of_le reached with earlier | same
      · exact Nat.le_of_lt (List.pairwise_iff_getElem.1 ascending _ _ found inside earlier)
      · exact Nat.le_of_eq (by congr)
    rw [List.getElem?_eq_getElem inside, Option.any_some, decide_eq_false_iff_not]
    omega

/-! ### Slots of the arenas -/

/-- What an arena can set aside: an entry of the table, or whole cache lines above the largest. -/
def IsSlot (slot : Nat) : Prop :=
  slot ∈ arenaClasses ∨ (∀ entry ∈ arenaClasses, entry < slot) ∧ cacheLine.value ∣ slot

theorem arenaClasses_ascending : arenaClasses.Pairwise (· < ·) := by decide

theorem cacheLine_value : cacheLine.value = 64 := by decide

theorem eight_dvd_of_isSlot (isSlot : IsSlot slot) : 8 ∣ slot := by
  rcases isSlot with entry | ⟨-, lines⟩
  · have whole : ∀ entry ∈ arenaClasses, 8 ∣ entry := by decide
    exact whole slot entry
  · exact Nat.dvd_trans (by decide) lines

/-- A slot that is a word leaves a cache line to the bound. -/
theorem le_of_isSlot (isSlot : IsSlot slot) (word : slot < Word.bound) : slot ≤ Word.bound - 64 := by
  rcases isSlot with entry | ⟨-, lines⟩
  · have short : ∀ entry ∈ arenaClasses, entry ≤ Word.bound - 64 := by decide
    exact short slot entry
  · obtain ⟨count, rfl⟩ := lines
    rw [cacheLine_value] at word ⊢
    unfold Word.bound at *
    omega

theorem arenaRounded?_eq_none_iff :
    arenaRounded? size = none ↔ size = 0 ∨ Word.bound - 64 < size := by
  unfold arenaRounded?
  by_cases nothing : size = 0
  · simp [nothing]
  · rw [if_neg nothing, or_iff_right nothing]
    cases found : arenaClasses.find? (size ≤ ·) with
    | none => exact PowerOfTwo.roundUp?_eq_none_iff.trans (by rw [cacheLine_value])
    | some entry =>
      obtain ⟨⟨member, enough⟩, -⟩ := isLeast_of_find? arenaClasses_ascending found
      have short : ∀ entry ∈ arenaClasses, entry ≤ 32768 := by decide
      have small := short entry member
      refine iff_of_false (Option.some_ne_none _) ?_
      unfold Word.bound
      omega

/-- An arena sets aside the least slot that is large enough. -/
theorem isLeast_arenaRounded (rounded : arenaRounded? size = some slot) :
    IsLeast {slot | IsSlot slot ∧ size ≤ slot} slot ∧ slot < Word.bound := by
  unfold arenaRounded? at rounded
  split at rounded
  · cases rounded
  · split at rounded
    · next found =>
      cases rounded
      obtain ⟨⟨member, enough⟩, least⟩ := isLeast_of_find? arenaClasses_ascending found
      have words : ∀ entry ∈ arenaClasses, entry < Word.bound := by decide
      refine ⟨⟨⟨.inl member, enough⟩, ?_⟩, words slot member⟩
      rintro other ⟨entry | ⟨above, -⟩, large⟩
      · exact least ⟨entry, large⟩
      · exact Nat.le_of_lt (above slot member)
    · next none =>
      obtain ⟨⟨⟨lines, enough⟩, least⟩, word⟩ := PowerOfTwo.roundUp?_eq_some_iff.1 rounded
      have above : ∀ entry ∈ arenaClasses, entry < size := by
        simpa using List.find?_eq_none.1 none
      refine ⟨⟨⟨.inr ⟨fun entry member => ?_, lines⟩, enough⟩, ?_⟩, word⟩
      · exact Nat.lt_of_lt_of_le (above entry member) enough
      · rintro other ⟨entry | ⟨-, multiple⟩, large⟩
        · exact absurd large (Nat.not_le_of_lt (above other entry))
        · exact least ⟨multiple, large⟩

/-- Arenas set aside at least a word. -/
theorem eight_le_arenaRounded (rounded : arenaRounded? size = some slot) : 8 ≤ slot := by
  obtain ⟨enough, positive⟩ := le_arenaRounded rounded
  exact Nat.le_of_dvd (Nat.lt_of_lt_of_le positive enough)
    (eight_dvd_of_isSlot (isLeast_arenaRounded rounded).1.1.1)

theorem arenaRounded?_mono {larger next : Nat} (rounded : arenaRounded? size = some slot)
    (le : size ≤ larger) (beyond : arenaRounded? larger = some next) : slot ≤ next := by
  obtain ⟨⟨isSlot, enough⟩, -⟩ := (isLeast_arenaRounded beyond).1
  exact (isLeast_arenaRounded rounded).1.2 ⟨isSlot, Nat.le_trans le enough⟩

/-- A slot is set aside for itself. -/
theorem arenaRounded?_idem (rounded : arenaRounded? size = some slot) :
    arenaRounded? slot = some slot := by
  obtain ⟨⟨⟨isSlot, enough⟩, -⟩, word⟩ := isLeast_arenaRounded rounded
  have positive : size ≠ 0 := fun nothing =>
    Option.some_ne_none slot (rounded.symm.trans (arenaRounded?_eq_none_iff.2 (.inl nothing)))
  have short := le_of_isSlot isSlot word
  cases again : arenaRounded? slot with
  | none =>
    rcases arenaRounded?_eq_none_iff.1 again with nothing | long
    · omega
    · omega
  | some next =>
    have itself : IsLeast {other | IsSlot other ∧ slot ≤ other} slot :=
      ⟨⟨isSlot, Nat.le_refl _⟩, fun _ member => member.2⟩
    rw [(isLeast_arenaRounded again).1.unique itself]

/-- A class is the place of the entry that is set aside. -/
theorem arenaRounded?_of_class (found : arenaClass? size = some sizeClass) :
    ∃ slot, arenaClasses[sizeClass]? = some slot ∧ arenaRounded? size = some slot := by
  unfold arenaClass? at found
  split at found
  · cases found
  · next nonzero =>
    obtain ⟨inside, -⟩ := List.findIdx?_eq_some_iff_getElem.1 found
    have entry := List.getElem?_eq_getElem inside
    refine ⟨_, entry, ?_⟩
    unfold arenaRounded?
    rw [if_neg nonzero, List.find?_eq_bind_findIdx?_getElem?, found, Option.bind_some, entry]

/-- Where there is no class, whole cache lines are set aside. -/
theorem arenaRounded?_of_no_class (nonzero : size ≠ 0) (none : arenaClass? size = none) :
    arenaRounded? size = cacheLine.roundUp? size := by
  unfold arenaClass? at none
  rw [if_neg nonzero] at none
  unfold arenaRounded?
  rw [if_neg nonzero, List.find?_eq_bind_findIdx?_getElem?, none]
  rfl

/-- The class of the arenas, found by bisection. -/
def arenaClassBisected? (size : Nat) : Option Nat :=
  if size = 0 then none
  else Option.guard (· < arenaClasses.length)
    (bisect (fun place => arenaClasses[place]?.any (· < size)) 0 arenaClasses.length)

/-- The bytes that an arena sets aside, read from the table at the place that bisection finds. -/
def arenaRoundedBisected? (size : Nat) : Option Nat :=
  match arenaClassBisected? size with
  | some sizeClass => arenaClasses[sizeClass]?
  | none => if size = 0 then none else cacheLine.roundUp? size

theorem arenaClassBisected?_eq (size : Nat) : arenaClassBisected? size = arenaClass? size := by
  unfold arenaClassBisected? arenaClass?
  rw [bisect_table arenaClasses_ascending, List.findIdx?_eq_guard_findIdx_lt]

theorem arenaRoundedBisected?_eq (size : Nat) : arenaRoundedBisected? size = arenaRounded? size := by
  unfold arenaRoundedBisected?
  rw [arenaClassBisected?_eq]
  cases found : arenaClass? size with
  | some sizeClass =>
    obtain ⟨slot, entry, rounded⟩ := arenaRounded?_of_class found
    exact entry.trans rounded.symm
  | none =>
    by_cases nothing : size = 0
    · simp only [nothing, if_pos, arenaRounded?]
    · simp only [if_neg nothing]
      exact (arenaRounded?_of_no_class nothing found).symm

/-! ### Classes of the slabs -/

theorem slabClasses_ascending : slabClasses.Pairwise (· < ·) := by decide

theorem getElem?_slabClasses (bounded : sizeClass < slabClassCount) :
    slabClasses[sizeClass]? = some (slabObject sizeClass) := by
  have table : ∀ place < slabClassCount, slabClasses[place]? = some (slabObject place) := by decide
  exact table sizeClass bounded

theorem slabClass?_isSome_iff : (slabClass? size).isSome = true ↔ 1 ≤ size ∧ size ≤ slabMax := by
  unfold slabClass?
  by_cases refused : size = 0 ∨ slabMax < size
  · rw [if_pos refused]
    exact iff_of_false Bool.false_ne_true (by omega)
  · rw [if_neg refused]
    exact iff_of_true rfl (by omega)

/-- The objects of the class of a size are the least that are large enough. -/
theorem isLeast_slabObject (served : slabClass? size = some sizeClass) :
    IsLeast {entry | entry ∈ slabClasses ∧ size ≤ entry} (slabObject sizeClass) := by
  have known := getElem?_slabClasses (slabClass_lt served)
  obtain ⟨enough, positive⟩ := le_slabObject served
  refine ⟨⟨List.mem_of_getElem? known, enough⟩, ?_⟩
  rintro entry ⟨member, large⟩
  obtain ⟨place, inside, rfl⟩ := List.getElem_of_mem member
  have object : slabClasses[place] = slabObject place :=
    Option.some.inj ((List.getElem?_eq_getElem inside).symm.trans (getElem?_slabClasses inside))
  rw [object] at large ⊢
  have log : ceilLog2 size ≤ place + 3 := ceilLog2_le (Nat.ne_of_gt positive) large
  unfold slabClass? at served
  split at served
  · cases served
  · cases served
    exact Nat.pow_le_pow_right (by decide) (by omega)

/-- Counting bits finds what a search of the table finds. -/
theorem slabClass?_eq_findIdx? (size : Nat) :
    slabClass? size = if size = 0 then none else slabClasses.findIdx? (size ≤ ·) := by
  cases served : slabClass? size with
  | some sizeClass =>
    obtain ⟨-, positive⟩ := le_slabObject served
    rw [if_neg (Nat.ne_of_gt positive), findIdx?_of_isLeast slabClasses_ascending
      (getElem?_slabClasses (slabClass_lt served)) (isLeast_slabObject served)]
  | none =>
    by_cases nothing : size = 0
    · rw [if_pos nothing]
    · have refused : ¬(1 ≤ size ∧ size ≤ slabMax) := by
        rw [← slabClass?_isSome_iff, served]
        exact Bool.false_ne_true
      have short : ∀ entry ∈ slabClasses, entry ≤ slabMax := by decide
      rw [if_neg nothing, eq_comm, List.findIdx?_eq_none_iff]
      intro entry member
      have small := short entry member
      exact decide_eq_false (by omega)

end NumaHeap.Size
