/-!
Why a request is denied. Every cause carries what its message shows, and each type of cause has one
`message`.
-/

namespace NumaHeap

/-- The platform did not map memory. -/
inductive MapError where
  | outOfMemory
  | hugePagesUnavailable
  | os (code : Int)
deriving DecidableEq

/-- The platform did not place memory, or a thread, on a node. -/
inductive BindError where
  | unavailable
  | invalidNode (node : Nat)
  | os (code : Int)
deriving DecidableEq

/-- The security check refused a request. -/
inductive Rejection where
  | zeroSize
  | tooLarge (size limit : Nat)
  | suspiciousContent (offset : Nat)
deriving DecidableEq

/-- An allocation failed. -/
inductive AllocError where
  | zeroSize
  | map (cause : MapError)
  | rejected (cause : Rejection)
  | invalidAlignment (alignment : Nat)
  | invalidNode (node : Nat)
  | overflow
  | noSizeClass (size : Nat)
deriving DecidableEq

/-- An object was not released. -/
inductive FreeError where
  | arenaMemory
  | unknownPointer (address : Nat)
  | unknownSizeClass (size : Nat)
deriving DecidableEq

def MapError.message : MapError → String
  | .outOfMemory => "out of memory"
  | .hugePagesUnavailable => "huge pages unavailable"
  | .os code => s!"os error {code}"

def BindError.message : BindError → String
  | .unavailable => "NUMA is not available"
  | .invalidNode node => s!"invalid NUMA node {node}"
  | .os code => s!"os error {code}"

def Rejection.message : Rejection → String
  | .zeroSize => "zero-sized request"
  | .tooLarge size limit => s!"request of {size} bytes exceeds the limit of {limit} bytes"
  | .suspiciousContent offset => s!"suspicious content at offset {offset}"

def AllocError.message : AllocError → String
  | .zeroSize => "zero-sized allocation requested"
  | .map cause => "platform mapping failed: " ++ cause.message
  | .rejected cause => "security validation rejected the request: " ++ cause.message
  | .invalidAlignment alignment => s!"invalid alignment {alignment}"
  | .invalidNode node => s!"invalid NUMA node {node}"
  | .overflow => "allocation size overflow"
  | .noSizeClass size => s!"no size class for {size} bytes"

/-- Addresses are shown in hexadecimal. -/
def FreeError.message : FreeError → String
  | .arenaMemory => "arena memory cannot be freed individually"
  | .unknownPointer address => "unknown pointer 0x" ++ String.ofList (Nat.toDigits 16 address)
  | .unknownSizeClass size => s!"no size class for {size} bytes"

/-- The security check refused the request because of what the memory held. -/
def AllocError.isSuspicious : AllocError → Bool
  | .rejected (.suspiciousContent _) => true
  | _ => false

end NumaHeap
