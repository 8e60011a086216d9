import Ia32.Cpu.Basic

/-!
# Parameters of host functions

A host function that is called from the guest finds its arguments on the guest's
stack, one dword each, above the return address. A declared type turns the dword
into a value; a pointer to a string is followed, and a null one is rendered as
`(null)`.
-/

namespace Ia32

/-- The declared type of a parameter. -/
inductive ParamType where
  | uint32
  | int32
  | bool
  | cString
  deriving DecidableEq, Inhabited, Repr

/-- The value of a parameter. -/
inductive Param where
  | uint32 (value : UInt32)
  | int32 (value : Int32)
  | bool (value : Bool)
  | cString (text : String)
  deriving DecidableEq, Inhabited

namespace Param

/-- What stands in place of a null string. -/
def nullString : String := "(null)"

/-- The value of a type that a dword on the stack stands for. -/
def ofDword (m : Memory) (raw : UInt32) : ParamType → Param
  | .uint32 => .uint32 raw
  | .int32 => .int32 raw.toInt32
  | .bool => .bool (raw ≠ 0)
  | .cString => .cString (if raw = 0 then nullString else m.readCString raw)

/-- The value as an unsigned number; a string has none and counts as 0. -/
def toUInt32 : Param → UInt32
  | uint32 v => v
  | int32 v => v.toUInt32
  | bool b => if b then 1 else 0
  | cString _ => 0

/-- The value as a signed number. -/
def toInt32 (p : Param) : Int32 := p.toUInt32.toInt32

/-- Whether the value is other than 0. -/
def toBool (p : Param) : Bool := p.toUInt32 ≠ 0

/-- The text of a string; other values have none. -/
def text : Param → String
  | cString s => s
  | _ => ""

end Param

/-- The arguments of a call whose return address is on top of the stack. -/
def Cpu.arguments (cpu : Cpu) (types : List ParamType) : List Param :=
  types.mapIdx fun i type =>
    Param.ofDword cpu.memory (cpu.memory.read32 (cpu.esp + UInt32.ofNat (4 * (i + 1)))) type

end Ia32
