import NumaHeap.Size.Word
import Mathlib.Data.List.Perm.Basic
import Mathlib.Data.List.Nodup

/-!
What the parts of a list hold together. When one part changes, what it holds is exchanged and the
rest stays; when one part is taken out, the rest is what the others hold.
-/

namespace NumaHeap.Parts

variable {α β : Type} {parts : List α} {part : α}

/-- One part is changed where it stands. -/
theorem perm_modify (held : α → List β) {index : Nat} (found : parts[index]? = some part) :
    ∃ others, (parts.flatMap held).Perm (held part ++ others) ∧
      ∀ change : α → α,
        ((parts.modify index change).flatMap held).Perm (held (change part) ++ others) := by
  obtain ⟨inside, same⟩ := List.getElem?_eq_some_iff.1 found
  let before := parts.take index
  let after := parts.drop (index + 1)
  have moved : ∀ other,
      ((before ++ other :: after).flatMap held).Perm
        (held other ++ (before ++ after).flatMap held) := by
    intro other
    exact List.perm_middle.flatMap_right held
  have whole : parts = before ++ part :: after := by
    rw [← same, ← List.drop_eq_getElem_cons inside, List.take_append_drop]
  refine ⟨(before ++ after).flatMap held, ?_, fun change => ?_⟩
  · have here := moved part
    rwa [← whole] at here
  · rw [List.modify_eq_take_cons_drop inside, same]
    exact moved (change part)

/-- One part is replaced where it stands. -/
theorem perm_set (held : α → List β) {index : Nat} (found : parts[index]? = some part) :
    ∃ others, (parts.flatMap held).Perm (held part ++ others) ∧
      ∀ other : α, ((parts.set index other).flatMap held).Perm (held other ++ others) := by
  obtain ⟨others, before, after⟩ := perm_modify held found
  refine ⟨others, before, fun other => ?_⟩
  have same : parts.set index other = parts.modify index fun _ => other := by
    apply List.ext_getElem?
    intro place
    rw [List.getElem?_set', List.getElem?_modify]
    split
    · rfl
    · exact (congrFun Option.map_id _).symm
  rw [same]
  exact after fun _ => other

/-- A part is the one that was put in, or stood in its place before. -/
theorem set_cases {index place : Nat} {other : α}
    (found : (parts.set index other)[place]? = some part) :
    (index = place ∧ part = other) ∨ parts[place]? = some part := by
  rw [List.getElem?_set] at found
  split at found
  · next same =>
    split at found
    · exact .inl ⟨same, (Option.some.inj found).symm⟩
    · cases found
  · exact .inr found

/-- Parts that hold nothing twice are known by what they hold. -/
theorem index_unique {held : α → List β} (once : (parts.flatMap held).Nodup) {first second : Nat}
    {one two : α} {item : β} (here : parts[first]? = some one) (there : parts[second]? = some two)
    (inOne : item ∈ held one) (inTwo : item ∈ held two) : first = second := by
  have apart := List.pairwise_iff_getElem.1 (List.nodup_flatMap.1 once).2
  obtain ⟨firstInside, sameOne⟩ := List.getElem?_eq_some_iff.1 here
  obtain ⟨secondInside, sameTwo⟩ := List.getElem?_eq_some_iff.1 there
  rcases Nat.lt_trichotomy first second with below | equal | above
  · have disjoint := apart first second firstInside secondInside below
    rw [sameOne, sameTwo] at disjoint
    exact absurd inTwo (disjoint inOne)
  · exact equal
  · have disjoint := apart second first secondInside firstInside above
    rw [sameOne, sameTwo] at disjoint
    exact absurd inOne (disjoint inTwo)

/-- A sum changes with one of its parts. -/
theorem sum_set (count : α → Nat) {index : Nat} (found : parts[index]? = some part) (other : α) :
    ((parts.set index other).map count).sum + count part =
      (parts.map count).sum + count other := by
  induction parts generalizing index with
  | nil => cases found
  | cons first rest ih =>
    cases index with
    | zero =>
      cases found
      simp only [List.set_cons_zero, List.map_cons, List.sum_cons]
      omega
    | succ index =>
      have tail := ih found
      simp only [List.set_cons_succ, List.map_cons, List.sum_cons]
      omega

variable {key : α → Nat}

/-- A part stands alone with its key, before some parts and after some. -/
theorem exists_split (distinct : (parts.map key).Nodup) (member : part ∈ parts) :
    ∃ before after, parts = before ++ part :: after ∧
      parts.filter (key · != key part) = before ++ after ∧
      ∀ other ∈ before ++ after, key other ≠ key part := by
  obtain ⟨before, after, rfl⟩ := List.append_of_mem member
  have others : ∀ other ∈ before ++ after, key other ≠ key part := by
    intro other elsewhere same
    have front := (List.perm_middle.map key).nodup_iff.1 distinct
    rw [List.map_cons, List.nodup_cons] at front
    exact front.1 (same ▸ List.mem_map_of_mem elsewhere)
  refine ⟨before, after, rfl, ?_, others⟩
  rw [List.filter_append, List.filter_cons_of_neg (by simp), ← List.filter_append]
  exact List.filter_eq_self.2 fun other elsewhere => bne_iff_ne.2 (others other elsewhere)

/-- The part with a key is taken out. -/
theorem perm_filter (held : α → List β) (distinct : (parts.map key).Nodup) (member : part ∈ parts) :
    (parts.flatMap held).Perm
      (held part ++ (parts.filter (key · != key part)).flatMap held) := by
  obtain ⟨before, after, whole, kept, -⟩ := exists_split distinct member
  rw [kept, whole]
  exact List.perm_middle.flatMap_right held

/-- The part with a key is changed. -/
theorem perm_replace (held : α → List β) (distinct : (parts.map key).Nodup) (member : part ∈ parts)
    (change : α → α) :
    ((parts.map fun other => if key other = key part then change other else other).flatMap held).Perm
      (held (change part) ++ (parts.filter (key · != key part)).flatMap held) := by
  obtain ⟨before, after, whole, kept, others⟩ := exists_split distinct member
  have unchanged : ∀ list : List α, (∀ other ∈ list, other ∈ before ++ after) →
      list.map (fun other => if key other = key part then change other else other) = list := by
    intro list within
    conv_rhs => rw [← List.map_id list]
    exact List.map_congr_left fun other member => if_neg (others other (within other member))
  rw [kept, whole, List.map_append, List.map_cons, if_pos rfl,
    unchanged before fun _ member => List.mem_append_left _ member,
    unchanged after fun _ member => List.mem_append_right _ member]
  exact List.perm_middle.flatMap_right held

/-- Numbers that are all different are no more than the range in which they lie. -/
theorem length_le_of_nodup {numbers : List Nat} {low high : Nat} (once : numbers.Nodup)
    (within : ∀ n ∈ numbers, low ≤ n ∧ n < high) : numbers.length ≤ high - low := by
  have inside : numbers ⊆ List.range' low (high - low) := by
    intro n member
    obtain ⟨above, below⟩ := within n member
    exact List.mem_range'_1.2 ⟨above, by omega⟩
  have few := (List.subperm_of_subset once inside).length_le
  rwa [List.length_range'] at few

section

variable {tests : α → Option Bool} {plain : α → Bool}

/-- A search whose tests all have results finds what a plain search finds. -/
theorem findM?_eq_some (agree : ∀ x ∈ parts, tests x = some (plain x)) :
    parts.findM? tests = some (parts.find? plain) := by
  induction parts with
  | nil => rfl
  | cons x rest ih =>
    obtain ⟨here, later⟩ := List.forall_mem_cons.1 agree
    rw [List.findM?, here, List.find?]
    cases plain x with
    | true => rfl
    | false => exact ih later

theorem anyM_eq_some (agree : ∀ x ∈ parts, tests x = some (plain x)) :
    parts.anyM tests = some (parts.any plain) := by
  induction parts with
  | nil => rfl
  | cons x rest ih =>
    obtain ⟨here, later⟩ := List.forall_mem_cons.1 agree
    rw [List.anyM, here, List.any_cons]
    cases plain x with
    | true => rfl
    | false => exact ih later

end

end NumaHeap.Parts
