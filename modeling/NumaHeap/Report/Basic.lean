/-!
Reports: what a library shows of itself, as trees of named values that any format can carry.
-/

namespace NumaHeap

/-- A tree of named values. -/
inductive Report where
  | nothing
  | flag (value : Bool)
  | whole (value : Int)
  | real (value : Float)
  | text (value : String)
  | list (items : List Report)
  | fields (entries : List (String × Report))

namespace Report

/-- A count. -/
def count (n : Nat) : Report := .whole n

/-- Several counts in a row. -/
def counts (ns : List Nat) : Report := .list (ns.map count)

/-- Counts by name. -/
def named (entries : List (String × Nat)) : List (String × Report) :=
  entries.map fun (name, n) => (name, count n)

/-- The report of a value, if there is one. -/
def optional {α : Type} (report : α → Report) (value : Option α) : Report :=
  value.elim .nothing report

/-- The report of an answer. -/
def answer {ε α : Type} (failed : ε → Report) (report : α → Report) : Except ε α → Report
  | .ok value => report value
  | .error error => failed error

/-- The report of a check, which shows nothing if all is well. -/
def check {ε : Type} (failed : ε → Report) : Except ε Unit → Report :=
  answer failed fun _ => .nothing

/-- An error by its code alone. -/
def code (name : String) : Report := .fields [("error", .text name)]

/-- An error with its code and its message. -/
def error (code message : String) : Report :=
  .fields [("error", .text code), ("message", .text message)]

end Report

end NumaHeap
