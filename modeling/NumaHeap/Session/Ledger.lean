import NumaHeap.Kind

/-!
What a client holds: a handle for every allocation, under a number of the client's choice. A handle
is live until its memory is released; the client reads and writes only through live handles.
-/

namespace NumaHeap.Session

/-- An allocation as the client knows it. -/
structure Handle where
  address : Nat
  size : Nat
  /-- The thread that asked for it, by its name. -/
  thread : Nat
  tier : Tier
  live : Bool := true
deriving DecidableEq

/-- The memory belongs to an arena. -/
def Handle.inArena (h : Handle) : Bool :=
  match h.tier with
  | .arena _ => true
  | _ => false

/-- Two handles of the same memory: address and tier agree. -/
def Handle.shares (h other : Handle) : Bool :=
  h.address == other.address && h.tier == other.tier

/-- Why a client cannot use a handle. -/
inductive Misuse where
  | noHandle
  | deadHandle
  | outOfRange
deriving DecidableEq

/-- The handles of a client. -/
structure Ledger where
  entries : List (Nat × Handle) := []

namespace Ledger

/-- The handle of a number. -/
def find? (l : Ledger) (id : Nat) : Option Handle :=
  (l.entries.find? (·.1 == id)).map (·.2)

/-- Forgets a number. -/
def unbind (l : Ledger) (id : Nat) : Ledger := ⟨l.entries.filter (·.1 != id)⟩

/-- Gives a number a handle in place of any other. -/
def bind (l : Ledger) (id : Nat) (h : Handle) : Ledger := ⟨(id, h) :: (l.unbind id).entries⟩

/-- Ends the life of the handles that satisfy a test. -/
def retire (l : Ledger) (test : Handle → Bool) : Ledger :=
  ⟨l.entries.map fun (id, h) => (id, if test h then { h with live := false } else h)⟩

/-- The live handle of a number, if `length` bytes from `offset` on lie within it. -/
def access (l : Ledger) (id offset length : Nat) : Except Misuse Handle :=
  match l.find? id with
  | none => .error .noHandle
  | some h =>
    if !h.live then .error .deadHandle
    else if h.size < offset + length then .error .outOfRange
    else .ok h

end Ledger

end NumaHeap.Session
