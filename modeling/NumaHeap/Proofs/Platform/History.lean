import NumaHeap.Proofs.Memory
import NumaHeap.Proofs.Platform.Journal

/-!
What a journal tells of a single byte: whether its address was handed out since it was mapped, and
what was last written there. A mapping over the address starts its history anew, and nothing else
that is done to the platform has any part in it.
-/

namespace NumaHeap

namespace Journal

/-- The address was handed out since it was mapped. -/
def Handed (address : Nat) : List Entry → Prop
  | [] => False
  | .mapped extent :: earlier => ¬extent.Holds address ∧ Handed address earlier
  | .handed extent :: earlier => extent.Holds address ∨ Handed address earlier
  | _ :: earlier => Handed address earlier

/-- The byte that was last written to the address since it was mapped. -/
def written? (address : Nat) : List Entry → Option UInt8
  | [] => none
  | .mapped extent :: earlier => if extent.Holds address then none else written? address earlier
  | .wrote start bytes :: earlier =>
    if Extent.Holds ⟨start, bytes.length⟩ address then bytes[address - start]?
    else written? address earlier
  | _ :: earlier => written? address earlier

/-- Why a byte may be found in memory: it is blank, or some holder wrote it last. -/
def Explains (entries : List Entry) (address : Nat) (byte : UInt8) : Prop :=
  byte = 0 ∨ (Handed address entries ∧ written? address entries = some byte)

variable {entries : List Entry} {address start : Nat} {byte : UInt8} {extent : Extent}
  {bytes : List UInt8}

theorem Explains.eq_zero (explains : Explains entries address byte)
    (never : ¬Handed address entries) : byte = 0 :=
  explains.resolve_right fun found => never found.1

theorem Explains.mapped (outside : ¬extent.Holds address)
    (explains : Explains entries address byte) :
    Explains (.mapped extent :: entries) address byte := by
  apply explains.imp_right
  intro found
  refine ⟨⟨outside, found.1⟩, ?_⟩
  rw [written?, if_neg outside]
  exact found.2

theorem Explains.handed (explains : Explains entries address byte) :
    Explains (.handed extent :: entries) address byte :=
  explains.imp_right fun found => ⟨.inr found.1, found.2⟩

theorem Explains.wrote (outside : ¬Extent.Holds ⟨start, bytes.length⟩ address)
    (explains : Explains entries address byte) :
    Explains (.wrote start bytes :: entries) address byte := by
  apply explains.imp_right
  intro found
  refine ⟨found.1, ?_⟩
  rw [written?, if_neg outside]
  exact found.2

/-- What a holder has just written is explained by it. -/
theorem explains_written (memory : Memory) (handed : Handed address entries)
    (inside : Extent.Holds ⟨start, bytes.length⟩ address) :
    Explains (.wrote start bytes :: entries) address ((memory.write start bytes).get address) := by
  by_cases below : address < Word.bound
  · obtain ⟨place, rfl⟩ := Nat.exists_eq_add_of_le inside.1
    have small : place < bytes.length := Nat.lt_of_add_lt_add_left inside.2
    refine .inr ⟨handed, ?_⟩
    rw [written?, if_pos inside, Memory.get_write_inside bytes place small below,
      Nat.add_sub_cancel_left, List.getElem?_eq_getElem small]
  · exact .inl (Memory.get_of_bound_le _ (Nat.le_of_not_lt below))

end Journal

variable {σ : Type} {os : Platform σ} {address : Nat}

namespace Journaled

variable {s after : Journaled σ} {held other new : List Region}

/-- Only a mapping over the address ends what a journal says of it. -/
theorem steady {P : List Entry → Prop}
    (mapped : ∀ extent entries, ¬Extent.Holds extent address → P entries →
      P (.mapped extent :: entries))
    (unmapped : ∀ extent entries, P entries → P (.unmapped extent :: entries)) :
    os.journaled.Steady address fun s => P s.entries where
  mapped made outside known := by
    rw [(map_ok made).2]
    exact mapped _ _ outside known
  refused failed known := by
    rw [(map_error failed).2]
    exact known
  unmap known := unmapped _ _ known
  bind known := known
  bindThread known := known

/-- Nothing is handed out by trades with the platform. -/
theorem handed_of_trades (trades : os.journaled.Trades s held after other)
    (handed : Journal.Handed address after.entries) : Journal.Handed address s.entries := by
  have gained : ∀ {middle last : Journaled σ} {new : List Region},
      os.journaled.Gains middle last new → Journal.Handed address last.entries →
        Journal.Handed address middle.entries := by
    intro middle last new gains
    induction gains with
    | refl => exact id
    | mapped _ _ made ih =>
      intro handed
      rw [(map_ok made).2] at handed
      exact ih handed.2
    | refused _ _ failed ih =>
      intro handed
      rw [(map_error failed).2] at handed
      exact ih handed
    | bound _ _ ih => exact ih
  have shed : ∀ (removed : List Region) {middle : Journaled σ},
      Journal.Handed address (os.journaled.unmapAll middle removed).entries →
        Journal.Handed address middle.entries := by
    intro removed
    induction removed with
    | nil => exact id
    | cons region rest ih =>
      intro middle handed
      exact @ih (os.journaled.unmap middle region.start region.length) handed
  induction trades with
  | refl => exact handed
  | gain _ gains ih => exact ih (gained gains handed)
  | shed _ ih => exact ih (shed _ handed)
  | perm _ _ ih => exact ih handed
  | place _ ih => exact ih handed

/-- One more thing is told, if there is any to tell. -/
def tell (s : Journaled σ) : Option Entry → Journaled σ
  | none => s
  | some entry => ⟨s.system, entry :: s.entries⟩

end Journaled

/-- A platform with a journal can be relied on like the one below it, which may drift by itself. -/
def Platform.Contract.journaled (contract : os.Contract) : os.journaled.Contract where
  Possible s := contract.Possible s.system
  Mapped s := contract.Mapped s.system
  Drifts s after := contract.Drifts s.system after.system ∧ after.entries = s.entries
  map_ok possible asked made := contract.map_ok possible asked (Journaled.map_ok made).1
  map_error possible asked failed :=
    contract.map_error possible asked (Journaled.map_error failed).1
  unmap possible mapped := contract.unmap possible mapped
  bind possible mapped := contract.bind possible mapped
  bindThread possible := contract.bindThread possible
  drift possible drifts := contract.drift possible drifts.1

/-- Memory holds nothing but what the journal explains. -/
def Platform.Explanation.told (contract : os.Contract) :
    Platform.Explanation contract.journaled where
  Allows s := Journal.Explains s.entries
  zero _ _ := .inl rfl
  steady address byte := Journaled.steady (P := (Journal.Explains · address byte))
    (fun _ _ outside known => known.mapped outside) fun _ _ known => known
  drift drifts known := by
    rw [drifts.2]
    exact known

end NumaHeap
