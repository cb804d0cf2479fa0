import Mathlib.Data.List.Sort
import NumaHeap.Proofs.Text
import NumaHeap.Topology.CpuList

/-!
CPU lists that are written and read back. A written list has items between gaps: entries in decimal, and
tokens that are no entry. What is read is what the entries stand for, in the order in which they were
written, whatever stands between them.
-/

namespace NumaHeap.Topology.CpuList

/-- The tracked CPUs from a first to a last one. -/
def trackedRange (first last : Nat) : List Nat :=
  (List.range maxCpus).filter fun cpu => first ≤ cpu && cpu ≤ last

/-- Something between two gaps that is no entry: neither a number nor two numbers around the first
dash. -/
structure Malformed (token : List Char) : Prop where
  nonempty : token ≠ []
  solid : ∀ c ∈ token, separates c = false
  noNumber : ∀ n, ¬Text.Denotes token n
  noRange : ∀ first last, token = first ++ '-' :: last → '-' ∉ first →
    ∀ m n, ¬(Text.Denotes first m ∧ Text.Denotes last n)

/-- What is written between two gaps. -/
inductive Item where
  | entry (entry : Entry)
  | malformed (token : List Char)

namespace Item

/-- An item as it is written. -/
def token : Item → List Char
  | .entry (.single cpu) => Nat.toDigits 10 cpu
  | .entry (.range first last) => Nat.toDigits 10 first ++ '-' :: Nat.toDigits 10 last
  | .malformed token => token

/-- The tracked CPUs that an item stands for. -/
def cpus : Item → List Nat
  | .entry (.single cpu) => trackedRange cpu cpu
  | .entry (.range first last) => trackedRange first last
  | .malformed _ => []

/-- The numbers of an entry are words, in any order. -/
def Valid : Item → Prop
  | .entry (.single cpu) => cpu < Word.bound
  | .entry (.range first last) => first < Word.bound ∧ last < Word.bound
  | .malformed token => Malformed token

end Item

/-- A list as it is written: the gap before the first item, and the items with the gaps after them. -/
structure Layout where
  lead : List Char
  places : List (Item × List Char)

namespace Layout

/-- The text of a written list. -/
def text (w : Layout) : List Char := w.lead ++ w.places.flatMap fun (item, gap) => item.token ++ gap

/-- Gaps are separators in any mixture, and between two items there is at least one. -/
structure Valid (w : Layout) : Prop where
  items : ∀ place ∈ w.places, place.1.Valid
  lead : ∀ c ∈ w.lead, separates c = true
  gaps : ∀ place ∈ w.places, ∀ c ∈ place.2, separates c = true
  between : ∀ place ∈ w.places.dropLast, place.2 ≠ []

end Layout

/-! ## Entries -/

/-- Both list the same CPUs in ascending order. -/
theorem range'_eq_trackedRange (first last : Nat) :
    List.range' first (min (last + 1) maxCpus - first) = trackedRange first last := by
  apply List.Pairwise.eq_of_mem_iff List.pairwise_lt_range'
    (List.pairwise_lt_range.filter _)
  intro cpu
  rw [List.mem_range'_1, List.mem_filter, List.mem_range, Bool.and_eq_true, decide_eq_true_eq,
    decide_eq_true_eq]
  omega

theorem Entry.cpus_eq (entry : Entry) : entry.cpus = (Item.entry entry).cpus := by
  cases entry with
  | range first last => exact range'_eq_trackedRange first last
  | single cpu =>
    show (if cpu < maxCpus then [cpu] else []) = trackedRange cpu cpu
    rw [← range'_eq_trackedRange]
    by_cases inside : cpu < maxCpus
    · have one : min (cpu + 1) maxCpus - cpu = 1 := by omega
      rw [if_pos inside, one]
      rfl
    · rw [if_neg inside, Nat.sub_eq_zero_of_le (by omega)]
      rfl

theorem ofToken?_of_dash {first last : List Char} (front : '-' ∉ first) :
    Entry.ofToken? (first ++ '-' :: last) =
      (Text.number? first).bind fun m => (Text.number? last).map fun n => .range m n := by
  rw [Entry.ofToken?, Text.cut?_eq_some_iff.2 ⟨rfl, front⟩]
  dsimp only
  cases Text.number? first <;> cases Text.number? last <;> rfl

theorem ofToken?_of_noDash {token : List Char} (plain : '-' ∉ token) :
    Entry.ofToken? token = (Text.number? token).map .single := by
  rw [Entry.ofToken?, Text.cut?_eq_none_iff.2 plain]

/-- An entry is read back from the way it is written. -/
theorem ofToken?_token {entry : Entry} (valid : (Item.entry entry).Valid) :
    Entry.ofToken? (Item.entry entry).token = some entry := by
  have plain (n : Nat) : '-' ∉ Nat.toDigits 10 n := Text.not_mem_toDigits rfl n
  cases entry with
  | single cpu =>
    show Entry.ofToken? (Nat.toDigits 10 cpu) = _
    rw [ofToken?_of_noDash (plain cpu), Text.number?_toDigits valid, Option.map_some]
  | range first last =>
    show Entry.ofToken? (Nat.toDigits 10 first ++ '-' :: Nat.toDigits 10 last) = _
    rw [ofToken?_of_dash (plain first), Text.number?_toDigits valid.1, Text.number?_toDigits valid.2,
      Option.bind_some, Option.map_some]

/-- Malformed tokens are those that are not read as an entry. -/
theorem ofToken?_eq_none_iff {token : List Char} :
    Entry.ofToken? token = none ↔ (∀ n, ¬Text.Denotes token n) ∧
      ∀ first last, token = first ++ '-' :: last → '-' ∉ first →
        ∀ m n, ¬(Text.Denotes first m ∧ Text.Denotes last n) := by
  by_cases dash : '-' ∈ token
  · obtain ⟨first, last, rfl, front⟩ := List.eq_append_cons_of_mem dash
    have unsigned : ∀ n, ¬Text.Denotes (first ++ '-' :: last) n := by
      rintro n ⟨digits, same | same, -, all, -⟩
      · have digit := all '-' (by rw [← same]; simp)
        exact absurd digit (by decide)
      · have member : '-' ∈ '+' :: digits := by rw [← same]; simp
        have digit := all '-' (by simpa using member)
        exact absurd digit (by decide)
    rw [ofToken?_of_dash front, and_iff_right unsigned]
    constructor
    · rintro none other rest split other_front m n ⟨before, after⟩
      have cut := Text.cut?_eq_some_iff.2 ⟨split, other_front⟩
      rw [Text.cut?_eq_some_iff.2 ⟨rfl, front⟩, Option.some.injEq, Prod.mk.injEq] at cut
      obtain ⟨rfl, rfl⟩ := cut
      rw [Text.number?_eq_some_iff.2 before, Text.number?_eq_some_iff.2 after] at none
      cases none
    · intro noRange
      cases before : Text.number? first with
      | none => rfl
      | some m =>
        cases after : Text.number? last with
        | none => rfl
        | some n =>
          exact absurd ⟨Text.number?_eq_some_iff.1 before, Text.number?_eq_some_iff.1 after⟩
            (noRange first last rfl front m n)
  · have whole : ∀ first last, token = first ++ '-' :: last → '-' ∉ first →
        ∀ m n, ¬(Text.Denotes first m ∧ Text.Denotes last n) := by
      rintro first last rfl
      exact absurd (by simp) dash
    rw [ofToken?_of_noDash dash, Option.map_eq_none_iff, Text.number?_eq_none_iff,
      and_iff_left whole]

theorem malformed_iff {token : List Char} :
    Malformed token ↔ token ≠ [] ∧ token.all (fun c => !separates c) = true ∧
      Entry.ofToken? token = none := by
  simp only [ofToken?_eq_none_iff, List.all_eq_true, Bool.not_eq_true']
  exact ⟨fun ⟨nonempty, solid, noNumber, noRange⟩ => ⟨nonempty, solid, noNumber, noRange⟩,
    fun ⟨nonempty, solid, noNumber, noRange⟩ => ⟨nonempty, solid, noNumber, noRange⟩⟩

instance (token : List Char) : Decidable (Malformed token) := decidable_of_iff' _ malformed_iff

instance : (item : Item) → Decidable item.Valid
  | .entry (.single _) => inferInstanceAs (Decidable (_ < _))
  | .entry (.range _ _) => inferInstanceAs (Decidable (_ ∧ _))
  | .malformed token => inferInstanceAs (Decidable (Malformed token))

theorem Layout.valid_iff {w : Layout} :
    w.Valid ↔ w.places.all (fun place => decide place.1.Valid) = true ∧
      w.lead.all separates = true ∧ w.places.all (fun place => place.2.all separates) = true ∧
      w.places.dropLast.all (fun place => decide (place.2 ≠ [])) = true := by
  simp only [List.all_eq_true, decide_eq_true_eq]
  exact ⟨fun ⟨items, lead, gaps, between⟩ => ⟨items, lead, gaps, between⟩,
    fun ⟨items, lead, gaps, between⟩ => ⟨items, lead, gaps, between⟩⟩

instance (w : Layout) : Decidable w.Valid := decidable_of_iff' _ Layout.valid_iff

/-! ## Items and gaps -/

theorem Item.token_ne_nil {item : Item} (valid : item.Valid) : item.token ≠ [] := by
  cases item with
  | malformed token => exact valid.nonempty
  | entry entry =>
    cases entry with
    | single cpu => exact Nat.toDigits_ne_nil
    | range first last => exact List.append_ne_nil_of_right_ne_nil _ (List.cons_ne_nil _ _)

theorem separates_of_isDigit {c : Char} (digit : c.isDigit = true) : separates c = false := by
  rw [Char.isDigit_iff_toNat] at digit
  have comma : c ≠ ',' := by rintro rfl; exact absurd digit (by decide)
  have low : '0'.toNat = 48 := rfl
  have high : '9'.toNat = 57 := rfl
  simp only [separates, beq_eq_false_iff_ne.2 comma, Bool.false_or, Text.isBlank, Text.blankRanges,
    List.any_cons, List.any_nil, Bool.or_false]
  grind

theorem Item.solid {item : Item} (valid : item.Valid) : ∀ c ∈ item.token, separates c = false := by
  have digits (n : Nat) : ∀ c ∈ Nat.toDigits 10 n, separates c = false := fun _ member =>
    separates_of_isDigit (Nat.isDigit_of_mem_toDigits (by decide) (by decide) member)
  cases item with
  | malformed token => exact valid.solid
  | entry entry =>
    cases entry with
    | single cpu => exact digits cpu
    | range first last =>
      have dash : ∀ c ∈ '-' :: Nat.toDigits 10 last, separates c = false :=
        List.forall_mem_cons.2 ⟨by decide, digits last⟩
      exact List.forall_mem_append.2 ⟨digits first, dash⟩

/-- What is read from an item is what it stands for. -/
theorem Item.elim_ofToken? {item : Item} (valid : item.Valid) :
    (Entry.ofToken? item.token).elim [] Entry.cpus = item.cpus := by
  cases item with
  | malformed token =>
    show (Entry.ofToken? token).elim [] Entry.cpus = []
    rw [(malformed_iff.1 valid).2.2]
    rfl
  | entry entry =>
    rw [ofToken?_token valid, Option.elim_some, entry.cpus_eq]

namespace Layout

variable {lead gap : List Char} {item : Item} {places : List (Item × List Char)}

theorem text_cons :
    text ⟨lead, (item, gap) :: places⟩ = lead ++ (item.token ++ text ⟨gap, places⟩) := by
  simp only [text, List.flatMap_cons, List.append_assoc]

/-- The gap after an item is the gap before the next one. -/
theorem Valid.tail (valid : Valid ⟨lead, (item, gap) :: places⟩) : Valid ⟨gap, places⟩ where
  items := (List.forall_mem_cons.1 valid.items).2
  lead := (List.forall_mem_cons.1 valid.gaps).1
  gaps := (List.forall_mem_cons.1 valid.gaps).2
  between place member := by
    have more : places ≠ [] := List.ne_nil_of_mem (List.dropLast_subset places member)
    apply valid.between place
    rw [List.dropLast_cons_of_ne_nil more]
    exact List.mem_cons_of_mem _ member

/-- What follows an item begins with a separator, unless the item ends the text. -/
theorem Valid.ends (valid : Valid ⟨lead, (item, gap) :: places⟩) :
    ∀ c ∈ (text ⟨gap, places⟩).head?, separates c = true := by
  intro c head
  cases gap with
  | cons d gap =>
    obtain rfl : d = c := Option.some.inj head
    exact valid.tail.lead d List.mem_cons_self
  | nil =>
    cases places with
    | nil => cases head
    | cons next places => exact absurd rfl (valid.between (item, []) List.mem_cons_self)

/-- The fields of a written list are its items. -/
theorem fields_text {w : Layout} (valid : w.Valid) :
    Text.fields separates w.text = w.places.map (·.1.token) := by
  obtain ⟨lead, places⟩ := w
  -- each gap ends the item before it, so the induction carries the gap that comes first
  induction places generalizing lead with
  | nil =>
    rw [text, List.flatMap_nil, Text.fields_gap valid.lead, Text.fields]
    rfl
  | cons place places ih =>
    obtain ⟨item, gap⟩ := place
    obtain ⟨first, -⟩ := List.forall_mem_cons.1 valid.items
    rw [text_cons, Text.fields_gap valid.lead,
      Text.fields_token (item.token_ne_nil first) (item.solid first) valid.ends, ih gap valid.tail]
    rfl

end Layout

/-- What is read from a written list is what its entries stand for, in the order in which they are
written; a malformed token stands for nothing and changes nothing for its neighbours. And from no
text is a CPU read that is not tracked. -/
theorem read_text {w : Layout} (valid : w.Valid) :
    read w.text = w.places.flatMap (·.1.cpus) ∧ ∀ text, ∀ cpu ∈ read text, cpu < maxCpus := by
  refine ⟨?_, fun text cpu => lt_of_mem_read⟩
  rw [read, w.fields_text valid, List.flatMap_map]
  exact List.flatMap_congr fun place member => place.1.elim_ofToken? (valid.items place member)

theorem read_text_reversed_and_huge :
    let w : Layout := ⟨[' '], [(.entry (.range 7 9), [',', ' ']), (.malformed ['x', '-', '4'], ['\n']),
      (.entry (.single 2), [',']), (.entry (.range 3 1), ['\t']), (.malformed ['-', '1'], [',', ',']),
      (.entry (.single 1024), ['\u2003']), (.entry (.range 1022 18446744073709551615), [])]⟩
    w.Valid ∧ read w.text = [7, 8, 9, 2, 1022, 1023] ∧ 1023 ∈ read w.text ∧ 1023 < maxCpus := by
  intro w
  have valid : w.Valid := by decide +kernel
  have listed : read w.text = [7, 8, 9, 2, 1022, 1023] :=
    (read_text valid).1.trans (by decide +kernel)
  have member : 1023 ∈ read w.text := by
    rw [listed]
    decide
  exact ⟨valid, listed, member, (read_text valid).2 w.text 1023 member⟩

end NumaHeap.Topology.CpuList
