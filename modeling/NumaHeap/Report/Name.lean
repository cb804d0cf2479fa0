import NumaHeap.Kind
import NumaHeap.Security.Mode

/-!
The names of kinds, arenas, tiers and modes.
-/

namespace NumaHeap

def ObjectKind.ofName? : String → Option ObjectKind
  | "Generic" => some .generic
  | "Instance" => some .classInstance
  | "Function" => some .function
  | "String" => some .string
  | "Array" => some .array
  | "HashMap" => some .hashMap
  | _ => none

def ArenaKind.name : ArenaKind → String
  | .general => "General"
  | .object => "Object"
  | .string => "String"

def ArenaKind.ofName? : String → Option ArenaKind
  | "General" => some .general
  | "Object" => some .object
  | "String" => some .string
  | _ => none

def Tier.name : Tier → String
  | .arena kind => "Arena." ++ kind.name
  | .slab => "Slab"
  | .large => "Large"

namespace Security.Mode

def name : Mode → String
  | .disabled => "Disabled"
  | .basic => "Basic"
  | .enhanced => "Enhanced"
  | .paranoid => "Paranoid"

def ofName? : String → Option Mode
  | "Disabled" => some .disabled
  | "Basic" => some .basic
  | "Enhanced" => some .enhanced
  | "Paranoid" => some .paranoid
  | _ => none

end Security.Mode

end NumaHeap
