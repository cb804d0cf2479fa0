import NumaHeap.Proofs.Memory
import NumaHeap.Proofs.Security.Scan
import NumaHeap.Security.Mode

/-!
The order of the security modes. A stricter mode has a lower limit and scans more, and what it scans
starts with all that a milder mode scans. A scan of leading bytes finds what a scan of the whole slice
finds if that lies among them, and nothing otherwise; so the modes differ in how far they look, and not
in what they find.
-/

namespace NumaHeap

namespace Security

variable {bytes : List UInt8} {offset count size : Nat}

/-- A signature stands among the leading bytes if its word ends there. -/
theorem signatureAt_take :
    SignatureAt (bytes.take count) offset ↔ offset + 4 ≤ count ∧ SignatureAt bytes offset := by
  have same (inside : offset + 4 ≤ count) :
      ((bytes.take count).drop offset).take 4 = (bytes.drop offset).take 4 := by
    rw [List.drop_take, List.take_take, Nat.min_eq_left (by omega)]
  unfold SignatureAt
  rw [List.length_take]
  constructor
  · rintro ⟨aligned, within, known⟩
    have inside : offset + 4 ≤ count := by omega
    rw [same inside] at known
    exact ⟨inside, aligned, by omega, known⟩
  · rintro ⟨inside, aligned, within, known⟩
    rw [same inside]
    exact ⟨aligned, by omega, known⟩

/-- The first signature among the leading bytes is the first one of all. -/
theorem isLeast_take :
    IsLeast {o | SignatureAt (bytes.take count) o} offset ↔
      offset + 4 ≤ count ∧ IsLeast {o | SignatureAt bytes o} offset := by
  constructor
  · rintro ⟨here, lower⟩
    obtain ⟨inside, there⟩ := signatureAt_take.1 here
    refine ⟨inside, there, fun other known => ?_⟩
    by_contra before
    have early : other + 4 ≤ count := by omega
    exact before (lower (signatureAt_take.2 ⟨early, known⟩))
  · rintro ⟨inside, there, lower⟩
    refine ⟨signatureAt_take.2 ⟨inside, there⟩, fun other known => ?_⟩
    exact lower (signatureAt_take.1 known).2

theorem scan_eq_some_iff :
    scan bytes = some offset ↔ IsLeast {o | SignatureAt bytes o} offset := by
  rw [scan, firstInBlocks?, firstInBlocksFrom?_eq, firstWordFrom?_eq_some_iff]
  simp

theorem scan_eq_none_iff : scan bytes = none ↔ ∀ o, ¬SignatureAt bytes o := by
  constructor
  · intro nothing o there
    classical
    have found := scan_eq_some_iff.2 (Nat.isLeast_find ⟨o, there⟩)
    rw [nothing] at found
    cases found
  · intro clean
    cases found : scan bytes with
    | none => rfl
    | some o => exact absurd (scan_eq_some_iff.1 found).1 (clean o)

namespace Mode

variable {mode mild strict : Mode}

theorem checkContent_eq_ok_iff :
    checkContent (bytes.take count) = .ok () ↔ ∀ o, o + 4 ≤ count → ¬SignatureAt bytes o := by
  have clean : scan (bytes.take count) = none ↔ ∀ o, o + 4 ≤ count → ¬SignatureAt bytes o := by
    rw [scan_eq_none_iff]
    simp only [signatureAt_take, not_and]
  rw [← clean, checkContent]
  cases scan (bytes.take count) <;> simp

theorem checkContent_eq_error_iff :
    checkContent (bytes.take count) = .error (.suspiciousContent offset) ↔
      offset + 4 ≤ count ∧ IsLeast {o | SignatureAt bytes o} offset := by
  rw [← isLeast_take, ← scan_eq_some_iff, checkContent]
  cases scan (bytes.take count) <;> simp

/-- A size is accepted if the mode has no limit, or it is not zero and within the limit. -/
theorem checkSize_eq_ok_iff :
    mode.checkSize size = .ok () ↔ ∀ limit, mode.sizeLimit? = some limit → 0 < size ∧ size ≤ limit := by
  unfold checkSize
  cases mode.sizeLimit? with
  | none => simp
  | some limit =>
    by_cases nothing : size = 0
    · simp [nothing]
    · by_cases large : limit < size
      · simp [nothing, large]
      · have positive : 0 < size := by omega
        have within : size ≤ limit := by omega
        simp [nothing, large, positive, within]

/-- A slice is accepted if its size is, and no signature stands in what is scanned. -/
theorem validateBytes_eq_ok_iff :
    mode.validateBytes bytes = .ok () ↔ mode.checkSize bytes.length = .ok () ∧
      ∀ o, o + 4 ≤ mode.scanLength bytes.length → ¬SignatureAt bytes o := by
  rw [← checkContent_eq_ok_iff, validateBytes]
  cases mode.checkSize bytes.length <;> simp [bind, Except.bind]

/-- A slice is suspicious at its first signature, if its size is accepted and the word is scanned. -/
theorem validateBytes_eq_suspicious_iff :
    mode.validateBytes bytes = .error (.suspiciousContent offset) ↔
      mode.checkSize bytes.length = .ok () ∧ offset + 4 ≤ mode.scanLength bytes.length ∧
        IsLeast {o | SignatureAt bytes o} offset := by
  rw [← checkContent_eq_error_iff, validateBytes]
  cases checked : mode.checkSize bytes.length with
  | ok => simp [bind, Except.bind]
  | error cause =>
    have other : cause ≠ .suspiciousContent offset := by
      rintro rfl
      exact nomatch checkSize_error checked
    simp [bind, Except.bind, other]

/-- A stricter mode has a limit wherever a milder one has, and none that is higher. -/
theorem sizeLimit?_antitone {limit : Nat} (le : mild.rank ≤ strict.rank)
    (limited : mild.sizeLimit? = some limit) :
    ∃ lower, strict.sizeLimit? = some lower ∧ lower ≤ limit := by
  cases mild <;> cases strict <;> simp_all [rank, sizeLimit?, basicLimit] <;> omega

theorem checkSize_of_rank_le (le : mild.rank ≤ strict.rank)
    (accepted : strict.checkSize size = .ok ()) : mild.checkSize size = .ok () := by
  rw [checkSize_eq_ok_iff] at accepted ⊢
  intro limit limited
  obtain ⟨lower, below, tighter⟩ := sizeLimit?_antitone le limited
  obtain ⟨positive, within⟩ := accepted lower below
  exact ⟨positive, within.trans tighter⟩

/-- A stricter mode scans at least as much. -/
theorem scanLength_mono (le : mild.rank ≤ strict.rank) (size : Nat) :
    mild.scanLength size ≤ strict.scanLength size := by
  cases mild <;> cases strict <;> simp_all [rank, scanLength]

theorem validateBytes_of_rank_le (le : mild.rank ≤ strict.rank)
    (accepted : strict.validateBytes bytes = .ok ()) : mild.validateBytes bytes = .ok () := by
  obtain ⟨fits, clean⟩ := validateBytes_eq_ok_iff.1 accepted
  refine validateBytes_eq_ok_iff.2 ⟨checkSize_of_rank_le le fits, fun o scanned => ?_⟩
  exact clean o (scanned.trans (scanLength_mono le bytes.length))

/-- What is suspicious to a mode is so to a stricter one, at the same place, or it is too large. -/
theorem suspicious_of_rank_le (le : mild.rank ≤ strict.rank)
    (suspicious : mild.validateBytes bytes = .error (.suspiciousContent offset)) :
    strict.validateBytes bytes = .error (.suspiciousContent offset) ∨
      ∃ limit, strict.sizeLimit? = some limit ∧ limit < bytes.length ∧
        strict.validateBytes bytes = .error (.tooLarge bytes.length limit) := by
  obtain ⟨-, scanned, least⟩ := validateBytes_eq_suspicious_iff.1 suspicious
  have some : 0 < bytes.length := by
    have within := least.1.2.1
    omega
  by_cases fits : strict.checkSize bytes.length = .ok ()
  · left
    refine validateBytes_eq_suspicious_iff.2 ⟨fits, ?_, least⟩
    exact scanned.trans (scanLength_mono le bytes.length)
  · right
    rw [checkSize_eq_ok_iff] at fits
    push Not at fits
    obtain ⟨limit, limited, exceeds⟩ := fits
    have large : limit < bytes.length := by
      simpa only [not_le] using exceeds some
    refine ⟨limit, limited, large, ?_⟩
    have refused : strict.checkSize bytes.length = .error (.tooLarge bytes.length limit) := by
      simp only [checkSize, limited]
      rw [if_neg (by omega), if_pos large]
    rw [validateBytes, refused]
    rfl

/-- To look at memory finds what a look at the slice finds that it holds. -/
theorem validate_read {m : Memory} {address : Nat} (held : m.read address bytes.length = bytes) :
    mode.validate bytes.length (m.read address) = mode.validateBytes bytes := by
  have prefixes : m.read address (mode.scanLength bytes.length) =
      bytes.take (mode.scanLength bytes.length) := by
    rw [← m.take_read (mode.scanLength_le bytes.length), held]
  unfold validate validateBytes
  rw [← prefixes]
  congr 1
  funext _
  change (if mode.scanLength bytes.length = 0 then _ else _) = _
  split
  · next nothing =>
    rw [prefixes, nothing]
    rfl
  · rfl

/-- The modes are ordered: what a stricter one accepts a milder one accepts, and what is suspicious to
the milder one is so to the stricter one at the same offset, unless that finds it too large. The offset
is that of the first signature, which ends within what is scanned; and a slice is judged alike where it
stands in memory. -/
theorem validations_ordered (bytes : List UInt8) :
    (∀ mild strict : Mode, mild.rank ≤ strict.rank →
      strict.validateBytes bytes = .ok () → mild.validateBytes bytes = .ok ()) ∧
    (∀ (mild strict : Mode) (offset : Nat), mild.rank ≤ strict.rank →
      mild.validateBytes bytes = .error (.suspiciousContent offset) →
        strict.validateBytes bytes = .error (.suspiciousContent offset) ∨
          ∃ limit, strict.sizeLimit? = some limit ∧ limit < bytes.length ∧
            strict.validateBytes bytes = .error (.tooLarge bytes.length limit)) ∧
    (∀ (mode : Mode) (offset : Nat),
      mode.validateBytes bytes = .error (.suspiciousContent offset) ↔
        mode.checkSize bytes.length = .ok () ∧ offset + 4 ≤ mode.scanLength bytes.length ∧
          IsLeast {o | SignatureAt bytes o} offset) ∧
    (∀ (mode : Mode) (m : Memory) (address : Nat), m.read address bytes.length = bytes →
      mode.validate bytes.length (m.read address) = mode.validateBytes bytes) := by
  refine ⟨?_, ?_, ?_, ?_⟩
  · intro mild strict le accepted
    exact validateBytes_of_rank_le le accepted
  · intro mild strict offset le suspicious
    exact suspicious_of_rank_le le suspicious
  · intro mode offset
    exact validateBytes_eq_suspicious_iff
  · intro mode m address held
    exact validate_read held

/-- A slice with a jump to itself in its second word, also as it stands in memory, and a longer one that
holds it past what the enhanced mode scans. -/
theorem validations_ordered_two_slices :
    let early : List UInt8 := [1, 0, 0, 0, 0xEB, 0xFE, 0, 0, 7]
    let late : List UInt8 := List.replicate 32 0 ++ [0xEB, 0xFE, 0, 0]
    let memory := Memory.zeros.write 4096 early
    (enhanced.validateBytes late = .ok () ∧ basic.validateBytes late = .ok ()) ∧
      (enhanced.validateBytes early = .error (.suspiciousContent 4) ∧
        (paranoid.validateBytes early = .error (.suspiciousContent 4) ∨
          ∃ limit, paranoid.sizeLimit? = some limit ∧ limit < early.length ∧
            paranoid.validateBytes early = .error (.tooLarge early.length limit))) ∧
      (memory.read 4096 early.length = early ∧
        paranoid.validate early.length (memory.read 4096) = paranoid.validateBytes early) := by
  have late : enhanced.validateBytes (List.replicate 32 0 ++ [0xEB, 0xFE, 0, 0]) = .ok () := by decide
  have early : enhanced.validateBytes [1, 0, 0, 0, 0xEB, 0xFE, 0, 0, 7] =
      .error (.suspiciousContent 4) := by decide
  have held : (Memory.zeros.write 4096 [1, 0, 0, 0, 0xEB, 0xFE, 0, 0, 7]).read 4096 9 =
      [1, 0, 0, 0, 0xEB, 0xFE, 0, 0, 7] := by decide +kernel
  refine ⟨⟨late, ?_⟩, ⟨early, ?_⟩, held, ?_⟩
  · exact (validations_ordered _).1 .basic .enhanced (by decide) late
  · exact (validations_ordered _).2.1 .enhanced .paranoid 4 (by decide) early
  · exact (validations_ordered _).2.2.2 .paranoid _ 4096 held

end Mode

end Security

end NumaHeap
