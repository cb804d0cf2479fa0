import NumaHeap.Text.Field

/-!
Plain text and what is read from it: fields are what stands between gaps, a text is cut at the first
place where the mark stands, and a whole number is what its digits denote.
-/

namespace NumaHeap.Text

/-! ## Fields -/

section Fields

variable {separates : Char → Bool} {gap token rest : List Char}

/-- A gap says nothing. -/
theorem fields_gap (blank : ∀ c ∈ gap, separates c = true) (rest : List Char) :
    fields separates (gap ++ rest) = fields separates rest := by
  induction gap with
  | nil => rfl
  | cons c gap ih =>
    obtain ⟨first, blank⟩ := List.forall_mem_cons.1 blank
    rw [List.cons_append, fields, if_pos first, ih blank]

/-- A token without a separator is one field, if a separator ends it. -/
theorem fields_token (nonempty : token ≠ []) (solid : ∀ c ∈ token, separates c = false)
    (ends : ∀ c ∈ rest.head?, separates c = true) :
    fields separates (token ++ rest) = token :: fields separates rest := by
  obtain ⟨c, token, rfl⟩ := List.exists_cons_of_ne_nil nonempty
  obtain ⟨first, solid⟩ := List.forall_mem_cons.1 solid
  have inside : ∀ d ∈ token, (!separates d) = true := by
    intro d member
    rw [solid d member, Bool.not_false]
  have stops : rest.takeWhile (fun d => !separates d) = [] ∧
      rest.dropWhile (fun d => !separates d) = rest := by
    cases rest with
    | nil => exact ⟨rfl, rfl⟩
    | cons d rest =>
      have blank : separates d = true := ends d rfl
      simp [blank]
  rw [List.cons_append, fields, if_neg (by simp [first]),
    List.takeWhile_append_of_pos inside, stops.1, List.append_nil,
    List.dropWhile_append_of_pos inside, stops.2]

end Fields

/-! ## Cutting at a mark -/

variable {mark : Char} {text : List Char}

theorem cut?_cons (c : Char) (rest : List Char) :
    cut? [mark] (c :: rest) =
      if c = mark then some ([], rest)
      else (cut? [mark] rest).map fun (before, after) => (c :: before, after) := by
  by_cases here : c = mark
  · simp [cut?, here]
  · have other : (mark == c) = false := beq_eq_false_iff_ne.2 (Ne.symm here)
    simp [cut?, List.isPrefixOf, other, here]

/-- A text is cut at the first place where the mark stands. -/
theorem cut?_eq_some_iff {before after : List Char} :
    cut? [mark] text = some (before, after) ↔ text = before ++ mark :: after ∧ mark ∉ before := by
  induction text generalizing before with
  | nil => simp [cut?]
  | cons c rest ih =>
    rw [cut?_cons]
    by_cases here : c = mark
    · subst here
      rw [if_pos rfl]
      cases before with
      | nil => simp
      | cons d before =>
        simp only [Option.some.injEq, Prod.mk.injEq, List.cons_append, List.cons.injEq,
          List.mem_cons, not_or]
        constructor
        · rintro ⟨none, -⟩
          cases none
        · rintro ⟨⟨same, -⟩, different, -⟩
          exact absurd same different
    · rw [if_neg here, Option.map_eq_some_iff]
      constructor
      · rintro ⟨⟨front, back⟩, found, same⟩
        obtain ⟨rfl, rfl⟩ := Prod.mk.inj same
        obtain ⟨split, absent⟩ := ih.1 found
        exact ⟨by rw [split, List.cons_append], by simp [Ne.symm here, absent]⟩
      · rintro ⟨split, absent⟩
        cases before with
        | nil =>
          rw [List.nil_append, List.cons.injEq] at split
          exact absurd split.1 here
        | cons d before =>
          rw [List.cons_append, List.cons.injEq] at split
          rw [List.mem_cons, not_or] at absent
          exact ⟨(before, after), ih.2 ⟨split.2, absent.2⟩, by rw [split.1]⟩

theorem cut?_eq_none_iff : cut? [mark] text = none ↔ mark ∉ text := by
  induction text with
  | nil => simp [cut?]
  | cons c rest ih =>
    rw [cut?_cons]
    by_cases here : c = mark
    · simp [here]
    · simp [here, ih, Ne.symm here]

/-! ## Whole numbers -/

/-- The text is a way to write a number: decimal digits, maybe after one plus sign, and the number is
a word. -/
def Denotes (text : List Char) (n : Nat) : Prop :=
  ∃ digits, (text = digits ∨ text = '+' :: digits) ∧ digits ≠ [] ∧
    (∀ c ∈ digits, c.isDigit = true) ∧ Nat.ofDigitChars 10 digits 0 = n ∧ n < Word.bound

theorem digitsValue_eq (digits : List Char) :
    digitsValue digits = Nat.ofDigitChars 10 digits 0 := Nat.ofDigitChars_eq_foldl.symm

theorem number?_digits_iff {digits : List Char} {n : Nat} :
    (if digits.isEmpty || !digits.all Char.isDigit then none else Word.fit? (digitsValue digits)) =
        some n ↔
      digits ≠ [] ∧ (∀ c ∈ digits, c.isDigit = true) ∧ Nat.ofDigitChars 10 digits 0 = n ∧
        n < Word.bound := by
  rw [digitsValue_eq]
  by_cases good : (digits.isEmpty || !digits.all Char.isDigit) = true
  · rw [if_pos good]
    refine iff_of_false (by simp) ?_
    rintro ⟨nonempty, all, -⟩
    rw [Bool.or_eq_true, List.isEmpty_iff, Bool.not_eq_true', List.all_eq_false] at good
    obtain empty | ⟨c, member, other⟩ := good
    · exact nonempty empty
    · exact other (all c member)
  · rw [if_neg good, Word.fit?_eq_some_iff]
    simp only [Bool.or_eq_true, List.isEmpty_iff, Bool.not_eq_true', not_or, Bool.not_eq_false,
      List.all_eq_true] at good
    constructor
    · rintro ⟨small, rfl⟩
      exact ⟨good.1, good.2, rfl, small⟩
    · rintro ⟨-, -, rfl, small⟩
      exact ⟨small, rfl⟩

theorem number?_eq_some_iff {n : Nat} : number? text = some n ↔ Denotes text n := by
  have unsigned : text.head? ≠ some '+' → ∀ digits, text ≠ '+' :: digits := by
    rintro plain digits rfl
    exact plain rfl
  rw [number?]
  by_cases signed : text.head? = some '+'
  · obtain ⟨digits, rfl⟩ : ∃ digits, text = '+' :: digits := by
      cases text with
      | nil => cases signed
      | cons c digits =>
        rw [List.head?_cons, Option.some.injEq] at signed
        exact ⟨digits, by rw [signed]⟩
    rw [if_pos signed, List.tail_cons]
    refine number?_digits_iff.trans ⟨fun good => ⟨digits, .inr rfl, good⟩, ?_⟩
    rintro ⟨others, rfl | same, nonempty, all, value⟩
    · have digit := all '+' List.mem_cons_self
      exact absurd digit (by decide)
    · obtain ⟨-, rfl⟩ := List.cons.inj same
      exact ⟨nonempty, all, value⟩
  · rw [if_neg signed]
    refine number?_digits_iff.trans ⟨fun good => ⟨text, .inl rfl, good⟩, ?_⟩
    rintro ⟨digits, rfl | same, good⟩
    · exact good
    · exact absurd same (unsigned signed digits)

theorem number?_eq_none_iff : number? text = none ↔ ∀ n, ¬Denotes text n := by
  simp only [← number?_eq_some_iff, Option.eq_none_iff_forall_ne_some, ne_eq]

/-- A number that is printed in decimal is read back. -/
theorem number?_toDigits {n : Nat} (small : n < Word.bound) :
    number? (Nat.toDigits 10 n) = some n :=
  number?_eq_some_iff.2 ⟨_, .inl rfl, Nat.toDigits_ne_nil,
    fun _ => Nat.isDigit_of_mem_toDigits (by decide) (by decide), Nat.ofDigitChars_ten_toDigits, small⟩

/-- Digits are all that a printed number is made of. -/
theorem not_mem_toDigits {c : Char} (other : c.isDigit = false) (n : Nat) :
    c ∉ Nat.toDigits 10 n := by
  intro member
  rw [Nat.isDigit_of_mem_toDigits (by decide) (by decide) member] at other
  cases other

end NumaHeap.Text
