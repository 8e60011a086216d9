import Ia32.Instruction.Basic

/-!
# Calls, returns and jumps

A call pushes its return address and notes the frame. If its target is the address of
an imported symbol, the emulators are asked first (`enterCall`): the one that answers
puts its result into EAX, and the program goes on at the return address without having
entered guest code.
-/

namespace Ia32

/-- Returns to the guest from an emulated call: the result goes to EAX, the frame on top
of the stack is released, and the return address and `cleanup` bytes are taken off. -/
def Cpu.returnFromHost (cpu : Cpu) (result cleanup : UInt32) : Cpu :=
  let (returnAddress, popped) := ((cpu.set .eax result).releaseFrame cpu.esp).pop
  (popped.jump returnAddress).set .esp (popped.esp + cleanup)

/-- Returns to the guest: the frame on top of the stack is released, and the return
address and `cleanup` bytes are taken off. -/
def Cpu.returnToCaller (cpu : Cpu) (cleanup : UInt32) : Cpu :=
  let (returnAddress, popped) := (cpu.releaseFrame cpu.esp).pop
  (popped.jump returnAddress).set .esp (popped.esp + cleanup)

/-- Calls `target`, which is to return to `returnAddress`. -/
def enterCall (linkage : Linkage) (target returnAddress : UInt32) : Exec Fault Unit := do
  Exec.push returnAddress
  Exec.update (·.recordFrame returnAddress)
  match linkage.imports.name? target with
  | none => Exec.jump target
  | some symbol =>
    match ← Exec.consult symbol linkage.emulators with
    | none =>
      Exec.emit (.unserved symbol target)
      Exec.jump target
    | some (emulator, result) =>
      Exec.emit (.served emulator.name symbol result)
      Exec.update (·.returnFromHost result (emulator.cleanup symbol))

namespace Handler

/-- CALL r/m32. The operand is a register, or a dword at a fixed address, which is how
imported functions are called. -/
def callIndirect : Handler where
  mnemonic := "call r/m32"
  claims opcode := opcode = 0xff
  execute opcode linkage := do
    let cpu ← Exec.state
    let modrm := ModRm.ofByte (cpu.codeByte 1)
    if modrm.reg.val = 2 ∧ modrm.isRegister then
      enterCall linkage (cpu.get (.ofCode modrm.rm)) (cpu.eip + 2)
    else if modrm.reg.val = 2 ∧ modrm.mode.val = 0 ∧ modrm.rm.val = 5 then
      enterCall linkage (cpu.memory.read32 (cpu.codeDword 2)) (cpu.eip + 6)
    else Exec.fail (.unimplementedOperand opcode (cpu.codeByte 1) cpu.eip)

/-- CALL rel32. -/
def callRelative : Handler where
  mnemonic := "call rel32"
  claims opcode := opcode = 0xe8
  execute _ linkage := do
    let cpu ← Exec.state
    enterCall linkage (cpu.eip + 5 + cpu.codeDword 1) (cpu.eip + 5)

/-- RET, and with opcode C2 RET imm16, which also takes that many bytes off the stack. -/
def ret : Handler where
  mnemonic := "ret"
  claims opcode := opcode = 0xc2 ∨ opcode = 0xc3
  execute opcode _ := Exec.update fun cpu =>
    cpu.returnToCaller
      (if opcode = 0xc2 then (cpu.memory.read16 (cpu.eip + 1)).toUInt32 else 0)

/-- JMP rel8 with opcode EB, else JMP rel32. -/
def jmp : Handler where
  mnemonic := "jmp"
  claims opcode := opcode = 0xe9 ∨ opcode = 0xeb
  execute opcode _ := Exec.update fun cpu =>
    if opcode = 0xeb then cpu.advance (2 + signExtend (cpu.codeByte 1))
    else cpu.advance (5 + cpu.codeDword 1)

end Handler

end Ia32
