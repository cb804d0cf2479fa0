import NumaHeap.Configuration
import NumaHeap.Report.Basic

/-!
Errors by code. Every cause has a code, and can be found again from its code and what it carries; a
cause inside another one follows it after a dot.
-/

namespace NumaHeap

def MapError.code : MapError → String
  | .outOfMemory => "OutOfMemory"
  | .hugePagesUnavailable => "HugePagesUnavailable"
  | .os _ => "Os"

def MapError.ofCode? : String → List Int → Option MapError
  | "OutOfMemory", [] => some .outOfMemory
  | "HugePagesUnavailable", [] => some .hugePagesUnavailable
  | "Os", [code] => some (.os code)
  | _, _ => none

def BindError.code : BindError → String
  | .unavailable => "Unavailable"
  | .invalidNode _ => "InvalidNode"
  | .os _ => "Os"

def BindError.ofCode? : String → List Int → Option BindError
  | "Unavailable", [] => some .unavailable
  | "InvalidNode", [node] => some (.invalidNode node.toNat)
  | "Os", [code] => some (.os code)
  | _, _ => none

def Rejection.code : Rejection → String
  | .zeroSize => "ZeroSize"
  | .tooLarge _ _ => "TooLarge"
  | .suspiciousContent _ => "SuspiciousContent"

def Rejection.ofCode? : String → List Int → Option Rejection
  | "ZeroSize", [] => some .zeroSize
  | "TooLarge", [size, limit] => some (.tooLarge size.toNat limit.toNat)
  | "SuspiciousContent", [offset] => some (.suspiciousContent offset.toNat)
  | _, _ => none

def AllocError.code : AllocError → String
  | .zeroSize => "ZeroSize"
  | .map cause => "Map." ++ cause.code
  | .rejected cause => "Rejected." ++ cause.code
  | .invalidAlignment _ => "InvalidAlignment"
  | .invalidNode _ => "InvalidNode"
  | .overflow => "Overflow"
  | .noSizeClass _ => "NoSizeClass"

def AllocError.ofCode? (code : String) (args : List Int) : Option AllocError :=
  match code.splitOn ".", args with
  | ["Map", cause], args => (MapError.ofCode? cause args).map .map
  | ["Rejected", cause], args => (Rejection.ofCode? cause args).map .rejected
  | ["ZeroSize"], [] => some .zeroSize
  | ["Overflow"], [] => some .overflow
  | ["InvalidAlignment"], [alignment] => some (.invalidAlignment alignment.toNat)
  | ["InvalidNode"], [node] => some (.invalidNode node.toNat)
  | ["NoSizeClass"], [size] => some (.noSizeClass size.toNat)
  | _, _ => none

def FreeError.code : FreeError → String
  | .arenaMemory => "ArenaMemory"
  | .unknownPointer _ => "UnknownPointer"
  | .unknownSizeClass _ => "UnknownSizeClass"

def FreeError.ofCode? : String → List Int → Option FreeError
  | "ArenaMemory", [] => some .arenaMemory
  | "UnknownPointer", [address] => some (.unknownPointer address.toNat)
  | "UnknownSizeClass", [size] => some (.unknownSizeClass size.toNat)
  | _, _ => none

def ConfigError.code : ConfigError → String
  | .blockSize _ => "BlockSize"
  | .largeThreshold _ _ => "LargeObjectThreshold"
  | .compactionThreshold _ => "CompactionThreshold"

/-- The compaction threshold is no whole number, and is left to the caller. -/
def ConfigError.ofCode? : String → List Int → Option ConfigError
  | "BlockSize", [size] => some (.blockSize size.toNat)
  | "LargeObjectThreshold", [threshold, minimum] =>
    some (.largeThreshold threshold.toNat minimum.toNat)
  | _, _ => none

def MapError.report (e : MapError) : Report := .error e.code e.message

def BindError.report (e : BindError) : Report := .error e.code e.message

def Rejection.report (e : Rejection) : Report := .error e.code e.message

def AllocError.report (e : AllocError) : Report := .error e.code e.message

def ConfigError.report (e : ConfigError) : Report := .error e.code e.message

/-- Of an unknown pointer the address is shown in place of a message, if addresses are shown. -/
def FreeError.report (address : Nat → Report) (e : FreeError) : Report :=
  match e with
  | .unknownPointer a => .fields [("error", .text e.code), ("address", address a)]
  | _ => .error e.code e.message

end NumaHeap
