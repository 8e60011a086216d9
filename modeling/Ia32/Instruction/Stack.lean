import Ia32.Instruction.Basic

/-!
# Stack instructions

PUSH, POP and LEAVE. Segment registers do not exist in the flat address space, so
POP ES takes nothing off the stack.
-/

namespace Ia32.Handler

/-- PUSH r32. The value of ESP that is pushed is the one before the push. -/
def pushRegister : Handler where
  mnemonic := "push r32"
  claims opcode := 0x50 ≤ opcode ∧ opcode ≤ 0x57
  execute opcode _ := do
    let cpu ← Exec.state
    Exec.push (cpu.get (.ofLowBits opcode))
    Exec.advance 1

/-- POP r32. The value popped into ESP wins over the popping. -/
def popRegister : Handler where
  mnemonic := "pop r32"
  claims opcode := 0x58 ≤ opcode ∧ opcode ≤ 0x5f
  execute opcode _ := do
    let value ← Exec.pop
    Exec.set (.ofLowBits opcode) value
    Exec.advance 1

/-- PUSH imm32. -/
def pushDword : Handler where
  mnemonic := "push imm32"
  claims opcode := opcode = 0x68
  execute _ _ := do
    let cpu ← Exec.state
    Exec.push (cpu.codeDword 1)
    Exec.advance 5

/-- PUSH imm8, with sign extension. -/
def pushByte : Handler where
  mnemonic := "push imm8"
  claims opcode := opcode = 0x6a
  execute _ _ := do
    let cpu ← Exec.state
    Exec.push (signExtend (cpu.codeByte 1))
    Exec.advance 2

/-- LEAVE: ESP becomes EBP, then EBP is popped. -/
def leave : Handler where
  mnemonic := "leave"
  claims opcode := opcode = 0xc9
  execute _ _ := do
    let cpu ← Exec.state
    Exec.set .esp cpu.registers.ebp
    let value ← Exec.pop
    Exec.set .ebp value
    Exec.advance 1

/-- POP ES, without effect. -/
def popSegment : Handler where
  mnemonic := "pop es"
  claims opcode := opcode = 0x07
  execute _ _ := Exec.advance 1

end Ia32.Handler
