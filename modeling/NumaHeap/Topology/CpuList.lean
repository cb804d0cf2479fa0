import NumaHeap.Text.Field

/-!
CPU lists such as `0-3,8,10-11`: entries between commas and blanks, each one number or a range.
Entries that are neither stand for no CPU at all, and their neighbours are read as if they were not
there.
-/

namespace NumaHeap.Topology

/-- CPUs are tracked below this index. -/
def maxCpus : Nat := 1024

namespace CpuList

/-- One entry of a list. -/
inductive Entry where
  | single (cpu : Nat)
  | range (first last : Nat)
deriving DecidableEq

/-- The tracked CPUs that an entry stands for; a range that runs backwards has none. -/
def Entry.cpus : Entry → List Nat
  | .single cpu => if cpu < maxCpus then [cpu] else []
  | .range first last => List.range' first (min (last + 1) maxCpus - first)

/-- Entries are separated by commas and blanks, in any mixture. -/
def separates (c : Char) : Bool := c == ',' || Text.isBlank c

/-- Reads one entry; a range is split at its first dash. -/
def Entry.ofToken? (token : List Char) : Option Entry :=
  match Text.cut? ['-'] token with
  | none => (Text.number? token).map .single
  | some (first, last) =>
    match Text.number? first, Text.number? last with
    | some first, some last => some (.range first last)
    | _, _ => none

/-- The CPUs of a list, in the order in which they are written. -/
def read (text : List Char) : List Nat :=
  (Text.fields separates text).flatMap fun token => (Entry.ofToken? token).elim [] Entry.cpus

theorem Entry.lt_of_mem_cpus {entry : Entry} {cpu : Nat} (member : cpu ∈ entry.cpus) :
    cpu < maxCpus := by
  cases entry with
  | single index =>
    simp only [Entry.cpus] at member
    split at member <;> simp_all
  | range first last =>
    simp only [Entry.cpus, List.mem_range'_1] at member
    omega

theorem lt_of_mem_read {text : List Char} {cpu : Nat} (member : cpu ∈ read text) :
    cpu < maxCpus := by
  obtain ⟨token, _, listed⟩ := List.mem_flatMap.1 member
  cases found : Entry.ofToken? token with
  | none => simp [found] at listed
  | some entry =>
    simp only [found, Option.elim_some] at listed
    exact entry.lt_of_mem_cpus listed

end CpuList

end NumaHeap.Topology
