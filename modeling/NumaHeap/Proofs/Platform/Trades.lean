import NumaHeap.Proofs.Platform.Contract

/-!
How the holder of some regions comes to hold others: it gains regions, it sheds some of those that it
holds, and it places threads. No other use of the platform is a trade, so that whatever is kept by
these is kept by everything that a heap does.
-/

namespace NumaHeap.Platform

variable {σ : Type} {os : Platform σ} {contract : os.Contract} {system middle after : σ}
  {held some other : List Region}

/-- From one state, with some regions held, to another with others held. -/
inductive Trades (os : Platform σ) (system : σ) (held : List Region) : σ → List Region → Prop
  | refl : Trades os system held system held
  | gain {middle after : σ} {some new : List Region} :
      Trades os system held middle some → os.Gains middle after new →
      Trades os system held after (new ++ some)
  | shed {middle : σ} {removed kept : List Region} :
      Trades os system held middle (removed ++ kept) →
      Trades os system held (os.unmapAll middle removed) kept
  | perm {middle : σ} {some other : List Region} :
      Trades os system held middle some → some.Perm other → Trades os system held middle other
  | place {middle : σ} {some : List Region} {thread : ThreadId} {node : Nat} :
      Trades os system held middle some →
      Trades os system held (os.bindThread middle thread node).2 some

namespace Trades

theorem trans (first : os.Trades system held middle some)
    (second : os.Trades middle some after other) : os.Trades system held after other := by
  induction second with
  | refl => exact first
  | gain _ gains ih => exact .gain ih gains
  | shed _ ih => exact .shed ih
  | perm _ same ih => exact .perm ih same
  | place _ ih => exact .place ih

theorem of_gains {new : List Region} (gains : os.Gains system after new)
    (same : other.Perm (new ++ held)) : os.Trades system held after other :=
  .perm (.gain .refl gains) same.symm

theorem of_perm (same : held.Perm other) : os.Trades system held system other := .perm .refl same

theorem of_shed {removed : List Region} (same : held.Perm (removed ++ other)) :
    os.Trades system held (os.unmapAll system removed) other :=
  .shed (.perm .refl same)

theorem custody (trades : os.Trades system held after other)
    (custody : Custody contract system held) : Custody contract after other := by
  induction trades with
  | refl => exact custody
  | gain _ gains ih => exact gains.custody ih
  | shed _ ih => exact ih.unmapAll
  | perm _ same ih => exact ih.perm same
  | place _ ih => exact ih.bindThread ..

end Trades

end NumaHeap.Platform
