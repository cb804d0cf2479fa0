import NumaHeap.Memory

/-!
Contents written at one go: one byte throughout, with other bytes laid over it here and there.
-/

namespace NumaHeap.Session

/-- Bytes to write. -/
structure Pattern where
  background : UInt8 := 0
  length : Nat
  /-- Offsets and the bytes laid over them, later ones on top. -/
  patches : List (Nat × List UInt8) := []

namespace Pattern

/-- Bytes without a background. -/
def ofBytes (bytes : List UInt8) : Pattern := { length := bytes.length, patches := [(0, bytes)] }

/-- The bytes one by one. -/
def toList (p : Pattern) : List UInt8 :=
  p.patches.foldl
    (fun bytes (offset, patch) =>
      bytes.take offset ++ patch ++ bytes.drop (offset + patch.length))
    (List.replicate p.length p.background)

/-- Writes the bytes to memory. -/
def write (p : Pattern) (memory : Memory) (start : Nat) : Memory :=
  p.patches.foldl (fun memory (offset, patch) => memory.write (start + offset) patch)
    (memory.fill start p.length p.background)

end Pattern

end NumaHeap.Session
