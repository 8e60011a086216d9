import Ia32.Cpu.Basic

/-!
# Register dump

The text of a processor state: EIP, the registers, the flags as digits, and a line
for every outstanding call.
-/

namespace Ia32

/-- The line of flags, zero first. -/
def Flags.dump (f : Flags) : String :=
  let digit (b : Bool) := if b then "1" else "0"
  " ".intercalate
    ["ZF=" ++ digit f.zero, "CF=" ++ digit f.carry, "SF=" ++ digit f.sign,
      "OF=" ++ digit f.overflow, "DF=" ++ digit f.direction, "IF=" ++ digit f.interrupt,
      "PF=" ++ digit f.parity]

/-- The text of a state, without a final line break. -/
def Cpu.dump (cpu : Cpu) : String :=
  let registers := Register.all.map fun r => r.name.toUpper ++ ": " ++ hex32 (cpu.get r)
  let frames := cpu.callFrames.map fun (slot, returnAddress) =>
    "  frame @ " ++ hex32 slot ++ " -> return " ++ hex32 returnAddress
  "\n".intercalate (("EIP: " ++ hex32 cpu.eip) :: registers ++ [cpu.flags.dump] ++ frames)

end Ia32
