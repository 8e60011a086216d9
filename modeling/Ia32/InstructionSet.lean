import Ia32.Instruction.Block
import Ia32.Instruction.Flow
import Ia32.Instruction.Move
import Ia32.Instruction.Processor
import Ia32.Instruction.Stack

/-!
# Instruction set

An ordered collection of handlers with a table from opcodes to handlers, filled as the
handlers are registered: of several handlers that claim an opcode, the first one
registered has it. `InstructionSet.dispatch` carries out the instruction at EIP.
-/

namespace Ia32

/-- Handlers in order of registration. The table holds, for every opcode, the place of
its handler. -/
structure InstructionSet where
  handlers : Array Handler := #[]
  table : Vector (Option Nat) 256 := Vector.replicate 256 none

namespace InstructionSet

/-- The set without handlers. -/
def empty : InstructionSet := {}

/-- Adds a handler for those of its opcodes that have none yet. -/
def register (set : InstructionSet) (handler : Handler) : InstructionSet where
  handlers := set.handlers.push handler
  table := set.table.mapIdx fun opcode place? =>
    match place? with
    | some place => some place
    | none => if handler.claims (UInt8.ofNat opcode) then some set.handlers.size else none

/-- The set of some handlers, registered in order. -/
def ofList (handlers : List Handler) : InstructionSet := handlers.foldl register empty

/-- The handler of an opcode. -/
def handler? (set : InstructionSet) (opcode : UInt8) : Option Handler :=
  (set.table.get ⟨opcode.toNat, opcode.toNat_lt⟩).bind (set.handlers[·]?)

/-- All handlers of this library, by opcode. -/
def standardHandlers : List Handler :=
  [.padding, .popSegment, .segmentMove, .pushRegister, .popRegister, .pushDword, .pushByte,
    .storeRegister, .loadRegister, .nop, .signToEdx, .loadEax, .storeEax, .blockOperation,
    .loadImmediate, .ret, .loadFarPointer, .leave, .deviceTransfer, .callRelative, .jmp,
    .repeatPrefix, .halt, .directionFlag, .callIndirect]

/-- The instruction set of this library. -/
def standard : InstructionSet := ofList standardHandlers

/-- Carries out the instruction at EIP. A pending repeat prefix is dropped before an
instruction that has no use for it; only instructions that succeed retire. -/
def dispatch (set : InstructionSet) (linkage : Linkage) : Exec Fault Unit := do
  let cpu ← Exec.state
  match set.handler? cpu.opcode with
  | none => Exec.fail (.unimplementedOpcode cpu.opcode cpu.eip)
  | some handler =>
    if cpu.rep.isSome && !handler.usesRep then
      Exec.emit (.repDropped handler.mnemonic cpu.eip)
      Exec.update Cpu.dropRep
    Exec.emit (.dispatched cpu.eip cpu.opcode handler.mnemonic)
    handler.execute cpu.opcode linkage
    Exec.update Cpu.retire

end InstructionSet

end Ia32
