import Ia32.Instruction.Basic

/-!
# Moves

MOV between registers, memory and immediate values, and LES.
-/

namespace Ia32.Handler

/-- MOV r/m32, r32. -/
def storeRegister : Handler where
  mnemonic := "mov r/m32, r32"
  claims opcode := opcode = 0x89
  execute _ _ := do
    let cpu ← Exec.state
    let modrm := ModRm.ofByte (cpu.codeByte 1)
    let value := cpu.get (.ofCode modrm.reg)
    if modrm.isRegister then
      Exec.set (.ofCode modrm.rm) value
      Exec.advance 2
    else
      let (address, length) ← Exec.operand (cpu.codeByte 1)
      Exec.write32 address value
      Exec.advance length

/-- MOV r32, r/m32. -/
def loadRegister : Handler where
  mnemonic := "mov r32, r/m32"
  claims opcode := opcode = 0x8b
  execute _ _ := do
    let cpu ← Exec.state
    let modrm := ModRm.ofByte (cpu.codeByte 1)
    if modrm.isRegister then
      Exec.set (.ofCode modrm.reg) (cpu.get (.ofCode modrm.rm))
      Exec.advance 2
    else
      let (address, length) ← Exec.operand (cpu.codeByte 1)
      Exec.set (.ofCode modrm.reg) (cpu.memory.read32 address)
      Exec.advance length

/-- MOV EAX, moffs32. -/
def loadEax : Handler where
  mnemonic := "mov eax, [moffs32]"
  claims opcode := opcode = 0xa1
  execute _ _ := do
    let cpu ← Exec.state
    Exec.set .eax (cpu.memory.read32 (cpu.codeDword 1))
    Exec.advance 5

/-- MOV moffs32, EAX. -/
def storeEax : Handler where
  mnemonic := "mov [moffs32], eax"
  claims opcode := opcode = 0xa3
  execute _ _ := do
    let cpu ← Exec.state
    Exec.write32 (cpu.codeDword 1) cpu.registers.eax
    Exec.advance 5

/-- MOV r32, imm32. -/
def loadImmediate : Handler where
  mnemonic := "mov r32, imm32"
  claims opcode := 0xb8 ≤ opcode ∧ opcode ≤ 0xbf
  execute opcode _ := do
    let cpu ← Exec.state
    Exec.set (.ofLowBits opcode) (cpu.codeDword 1)
    Exec.advance 5

/-- LES r32, m16:32. The offset is loaded; the selector has nowhere to go. -/
def loadFarPointer : Handler where
  mnemonic := "les r32, m16:32"
  claims opcode := opcode = 0xc4
  execute opcode _ := do
    let cpu ← Exec.state
    let modrm := ModRm.ofByte (cpu.codeByte 1)
    if modrm.isRegister then
      Exec.fail (.unimplementedOperand opcode (cpu.codeByte 1) cpu.eip)
    else
      let (address, length) ← Exec.operand (cpu.codeByte 1)
      Exec.set (.ofCode modrm.reg) (cpu.memory.read32 address)
      Exec.advance length

end Ia32.Handler
