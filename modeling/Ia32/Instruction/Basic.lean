import Ia32.Exec
import Ia32.Host.Emulator
import Ia32.Imports

/-!
# Instruction handlers

A handler carries out the instructions of one opcode or of a family of opcodes. It
runs with EIP on the opcode byte and leaves EIP on the instruction to run next; what
it may consult besides the state is the linkage of the program. The steps that
handlers are made of are defined here too: each either cannot fail or leaves the
state as it is when it does.
-/

namespace Ia32

/-- What a program is linked to: its bound imports, and the emulators that answer them
in the order they are asked. -/
structure Linkage where
  imports : Imports := ∅
  emulators : List Emulator := []

/-- The handler of one opcode or of a family of opcodes. -/
structure Handler where
  /-- The name of the instructions. -/
  mnemonic : String
  /-- The opcodes that the handler is for. -/
  claims : UInt8 → Bool
  /-- The effect of an opcode. -/
  execute : UInt8 → Linkage → Exec Fault Unit
  /-- Whether a pending repeat prefix survives into the instruction. -/
  usesRep : Bool := false

namespace Exec

/-- Pushes a dword. -/
def push (v : UInt32) : Exec Fault Unit :=
  attempt fun cpu => (cpu.push? v).mapError .accessViolation

/-- Takes a dword off the stack. -/
def pop : Exec Fault UInt32 := transform Cpu.pop

/-- Sets a register. -/
def set (r : Register) (v : UInt32) : Exec Fault Unit := update (·.set r v)

/-- Moves EIP `n` bytes forward. -/
def advance (n : UInt32) : Exec Fault Unit := update (·.advance n)

/-- Moves EIP to `a`. -/
def jump (a : UInt32) : Exec Fault Unit := update (·.jump a)

/-- Stores a dword. -/
def write32 (a v : UInt32) : Exec Fault Unit := store .accessViolation (·.write32 a v)

/-- The address of the memory operand of the instruction at EIP, and the length of
that instruction. -/
def operand (modrm : UInt8) : Exec Fault (UInt32 × UInt32) := do
  let cpu ← state
  match cpu.addressForm? modrm cpu.eip with
  | .ok form => pure (form.address cpu cpu.eip, form.length)
  | .error cause => fail (.decode cpu.eip cause)

/-- Asks emulators for a symbol in order, each in the state that those before it have
left: the first one that answers, with its result. -/
def consult (symbol : String) : List Emulator → Exec Fault (Option (Emulator × UInt32))
  | [] => pure none
  | emulator :: others => do
    let cpu ← state
    match emulator.answer? symbol cpu with
    | some reply =>
      emitAll reply.events
      update fun _ => reply.cpu
      return some (emulator, reply.result)
    | none =>
      emitAll (emulator.decline symbol cpu).2
      update fun _ => (emulator.decline symbol cpu).1
      consult symbol others

end Exec

end Ia32
