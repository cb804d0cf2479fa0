/-!
Scanning memory for known signatures. A signature is a 32-bit word, and a scan finds the first
aligned little-endian word of a slice that is one.

`firstWord?` looks at one word after the other. `firstInBlocks?` looks at blocks of four words at
once: each lane that holds a signature sets four bits of a mask, and the lowest bit set gives the
lane; the words after the last whole block are left to `firstWord?`.
-/

namespace NumaHeap.Security

/-- The words that a scan looks for: a run of no-operations, a run of breakpoints, a jump to itself,
and the start of a shell call. -/
def signatures : List UInt32 := [0x90909090, 0xCCCCCCCC, 0x0000FEEB, 0x50C03148]

/-- The little-endian word of four bytes. -/
def word (a b c d : UInt8) : UInt32 :=
  a.toUInt32 ||| b.toUInt32 <<< 8 ||| c.toUInt32 <<< 16 ||| d.toUInt32 <<< 24

/-- The word is one of the signatures. -/
def isSignature (w : UInt32) : Bool := signatures.contains w

/-- Offset of the first aligned word that is a signature, the slice starting at `offset`. A last
word that is cut short does not count. -/
def firstWordFrom? (offset : Nat) : List UInt8 → Option Nat
  | a :: b :: c :: d :: rest =>
    if isSignature (word a b c d) then some offset else firstWordFrom? (offset + 4) rest
  | _ => none

/-- Offset of the first aligned word of a slice that is a signature, one word at a time. -/
def firstWord? (bytes : List UInt8) : Option Nat := firstWordFrom? 0 bytes

/-- Four words side by side. -/
structure Lanes (α : Type) where
  first : α
  second : α
  third : α
  fourth : α

namespace Lanes

/-- Works on each lane apart. -/
def map {α β : Type} (f : α → β) (x : Lanes α) : Lanes β :=
  ⟨f x.first, f x.second, f x.third, f x.fourth⟩

/-- Joins two blocks lane by lane. -/
def zipWith {α β γ : Type} (f : α → β → γ) (x : Lanes α) (y : Lanes β) : Lanes γ :=
  ⟨f x.first y.first, f x.second y.second, f x.third y.third, f x.fourth y.fourth⟩

/-- One bit per byte of the block, the four bits of a lane alike. -/
def byteMask (hits : Lanes Bool) : Nat :=
  hits.first.toNat * 0x000F + hits.second.toNat * 0x00F0 +
    hits.third.toNat * 0x0F00 + hits.fourth.toNat * 0xF000

end Lanes

/-- The lanes that hold some signature: one comparison of the whole block for each signature. -/
def signatureLanes (block : Lanes UInt32) : Lanes Bool :=
  signatures.foldl (fun hits s => hits.zipWith Bool.or (block.map (· == s)))
    ⟨false, false, false, false⟩

/-- Index of the lowest bit set, of the sixteen of a byte mask. -/
def lowestBit (mask : Nat) : Nat :=
  ((List.range 16).find? mask.testBit).getD 16

/-- Offset of the first aligned word that is a signature, four words at a time. -/
def firstInBlocksFrom? (offset : Nat) : List UInt8 → Option Nat
  | a0 :: a1 :: a2 :: a3 :: b0 :: b1 :: b2 :: b3 :: c0 :: c1 :: c2 :: c3 ::
      d0 :: d1 :: d2 :: d3 :: rest =>
    let block : Lanes UInt32 :=
      ⟨word a0 a1 a2 a3, word b0 b1 b2 b3, word c0 c1 c2 c3, word d0 d1 d2 d3⟩
    let mask := (signatureLanes block).byteMask
    if mask = 0 then firstInBlocksFrom? (offset + 16) rest
    else some (offset + lowestBit mask / 4 * 4)
  | tail => firstWordFrom? offset tail

/-- Offset of the first aligned word of a slice that is a signature, four words at a time. -/
def firstInBlocks? (bytes : List UInt8) : Option Nat := firstInBlocksFrom? 0 bytes

/-- Offset of the first signature of a slice. -/
def scan (bytes : List UInt8) : Option Nat := firstInBlocks? bytes

end NumaHeap.Security
