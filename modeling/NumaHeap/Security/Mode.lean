import NumaHeap.Error
import NumaHeap.Security.Signature

/-!
The security modes, from none to strictest. A mode bounds the size of a request and scans some of
the memory about to be handed out; the strictest also clears what it accepts.
-/

namespace NumaHeap.Security

/-- How strictly requests are checked. -/
inductive Mode where
  | disabled
  | basic
  | enhanced
  | paranoid
deriving DecidableEq

namespace Mode

/-- Position in the order of strictness. -/
def rank : Mode → Nat
  | .disabled => 0
  | .basic => 1
  | .enhanced => 2
  | .paranoid => 3

/-- The largest request accepted by the basic mode. -/
def basicLimit : Nat := 4294967296

/-- In the enhanced mode only this many leading bytes are scanned. -/
def enhancedScanLength : Nat := 32

/-- The largest request accepted, if there is a limit: 4 GiB, 1 GiB and 256 MiB. -/
def sizeLimit? : Mode → Option Nat
  | .disabled => none
  | .basic => some basicLimit
  | .enhanced => some 1073741824
  | .paranoid => some 268435456

/-- How many leading bytes of an allocation are scanned. -/
def scanLength (mode : Mode) (size : Nat) : Nat :=
  match mode with
  | .disabled | .basic => 0
  | .enhanced => min size enhancedScanLength
  | .paranoid => size

/-- Accepted allocations are cleared. -/
def zeroFills : Mode → Bool
  | .paranoid => true
  | _ => false

/-- Checks the size of a request, if the mode has a limit. -/
def checkSize (mode : Mode) (size : Nat) : Except Rejection Unit :=
  match mode.sizeLimit? with
  | none => .ok ()
  | some limit =>
    if size = 0 then .error .zeroSize
    else if limit < size then .error (.tooLarge size limit)
    else .ok ()

theorem scanLength_le (mode : Mode) (size : Nat) : mode.scanLength size ≤ size := by
  cases mode with
  | disabled => exact Nat.zero_le _
  | basic => exact Nat.zero_le _
  | enhanced => exact Nat.min_le_left ..
  | paranoid => exact Nat.le_refl _

/-- The size alone makes no content suspicious. -/
theorem checkSize_error {mode : Mode} {size : Nat} {cause : Rejection}
    (refused : mode.checkSize size = .error cause) :
    (AllocError.rejected cause).isSuspicious = false := by
  unfold checkSize at refused
  split at refused
  · cases refused
  · split at refused
    · cases refused
      rfl
    · split at refused
      · cases refused
        rfl
      · cases refused

/-- Scans the leading bytes of an allocation. -/
def checkContent (bytes : List UInt8) : Except Rejection Unit :=
  match scan bytes with
  | some offset => .error (.suspiciousContent offset)
  | none => .ok ()

/-- Checks a slice as if it were an allocation of its own length. -/
def validateBytes (mode : Mode) (bytes : List UInt8) : Except Rejection Unit := do
  mode.checkSize bytes.length
  checkContent (bytes.take (mode.scanLength bytes.length))

/-- Checks an allocation of `size` bytes, whose leading bytes are fetched only as far as the mode
scans them. -/
def validate (mode : Mode) (size : Nat) (leading : Nat → List UInt8) : Except Rejection Unit := do
  mode.checkSize size
  let length := mode.scanLength size
  if length = 0 then .ok () else checkContent (leading length)

end Mode

end NumaHeap.Security
