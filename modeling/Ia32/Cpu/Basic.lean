import Ia32.Memory.CString
import Ia32.Register

/-!
# Processor state

Registers, the address of the next instruction, flags, memory, the repeat prefix
that waits for its instruction, and the bookkeeping of a run: whether the
processor has halted, how many instructions have retired, and the calls whose
return address is still on the stack.

A push moves the stack pointer only after its store has taken place: a refused push
has no state to give back (`Cpu.push?`).
-/

namespace Ia32

/-- A repeat prefix: `rep` repeats by count, and for a comparison while it finds
equality; `repne` while it finds inequality. -/
inductive RepPrefix where
  | rep
  | repne
  deriving DecidableEq, Inhabited, Repr

/-- The processor flags. -/
structure Flags where
  zero : Bool := false
  carry : Bool := false
  sign : Bool := false
  overflow : Bool := false
  direction : Bool := false
  interrupt : Bool := false
  parity : Bool := false
  deriving DecidableEq, Inhabited, Repr

/-- The state of the processor. `frames` holds the return address of every
outstanding call under the stack pointer it was stored at. -/
structure Cpu where
  registers : Registers
  eip : UInt32 := 0
  flags : Flags := {}
  memory : Memory := {}
  rep : Option RepPrefix := none
  halted : Bool := false
  retired : UInt64 := 0
  frames : Std.ExtTreeMap UInt32 UInt32 := ∅
  deriving Inhabited

namespace Cpu

/-- Where the stack starts unless told otherwise. -/
def defaultStackTop : UInt32 := 0x80000

/-- A fresh processor with empty memory and its stack below `top`. -/
def withStackTop (top : UInt32) : Cpu := { registers := { esp := top } }

/-- The value of a register. -/
def get (cpu : Cpu) (r : Register) : UInt32 := cpu.registers.get r

/-- The state with one register replaced. -/
def set (cpu : Cpu) (r : Register) (v : UInt32) : Cpu :=
  { cpu with registers := cpu.registers.set r v }

/-- The stack pointer. -/
abbrev esp (cpu : Cpu) : UInt32 := cpu.registers.esp

/-- The count register. -/
abbrev ecx (cpu : Cpu) : UInt32 := cpu.registers.ecx

/-- The low byte of EAX. -/
def al (cpu : Cpu) : UInt8 := cpu.registers.eax.toUInt8

/-- Replaces the low byte of EAX. -/
def setAl (cpu : Cpu) (b : UInt8) : Cpu :=
  cpu.set .eax (cpu.registers.eax - cpu.registers.eax % 0x100 + b.toUInt32)

/-- The state with EIP moved to `a`. -/
def jump (cpu : Cpu) (a : UInt32) : Cpu := { cpu with eip := a }

/-- The state with EIP moved `n` bytes forward. -/
def advance (cpu : Cpu) (n : UInt32) : Cpu := cpu.jump (cpu.eip + n)

/-- The state without a pending repeat prefix. -/
def dropRep (cpu : Cpu) : Cpu := { cpu with rep := none }

/-- The state with one more instruction retired. -/
def retire (cpu : Cpu) : Cpu := { cpu with retired := cpu.retired + 1 }

/-- The opcode byte of the instruction at EIP. -/
def opcode (cpu : Cpu) : UInt8 := cpu.memory.read8 cpu.eip

/-- The `i`-th byte after the opcode byte. -/
def codeByte (cpu : Cpu) (i : UInt32) : UInt8 := cpu.memory.read8 (cpu.eip + i)

/-- The dword that starts `i` bytes after the opcode byte. -/
def codeDword (cpu : Cpu) (i : UInt32) : UInt32 := cpu.memory.read32 (cpu.eip + i)

/-- Pushes a dword, unless its four bytes cannot be stored. -/
def push? (cpu : Cpu) (v : UInt32) : Except AccessViolation Cpu :=
  match cpu.memory.write32 (cpu.esp - 4) v with
  | .error violation => .error violation
  | .ok memory => .ok ({ cpu with memory }.set .esp (cpu.esp - 4))

/-- The dword on top of the stack, and the state without it. -/
def pop (cpu : Cpu) : UInt32 × Cpu := (cpu.memory.read32 cpu.esp, cpu.set .esp (cpu.esp + 4))

/-- Notes a call whose return address is on top of the stack. -/
def recordFrame (cpu : Cpu) (returnAddress : UInt32) : Cpu :=
  { cpu with frames := cpu.frames.insert cpu.esp returnAddress }

/-- Forgets the call whose return address is stored at `slot`. -/
def releaseFrame (cpu : Cpu) (slot : UInt32) : Cpu :=
  { cpu with frames := cpu.frames.erase slot }

/-- The outstanding calls, innermost first. -/
def callFrames (cpu : Cpu) : List (UInt32 × UInt32) := cpu.frames.toList

end Cpu

end Ia32
