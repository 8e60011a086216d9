import Ia32.Instruction.Basic

/-!
# Processor control

NOP and its likes, CDQ, HLT, the direction flag, and IN and OUT. There are no devices: a
byte read from one is zero. Of all the encodings of IN and OUT only IN AL, DX is carried
out; the others are stepped over one byte at a time.
-/

namespace Ia32.Handler

/-- A zero byte, taken for padding. -/
def padding : Handler where
  mnemonic := "(pad)"
  claims opcode := opcode = 0x00
  execute _ _ := Exec.advance 1

/-- A move of two bytes through the stack segment, stepped over. -/
def segmentMove : Handler where
  mnemonic := "mov r8, ss:[r/m8]"
  claims opcode := opcode = 0x12
  execute _ _ := Exec.advance 2

/-- NOP. -/
def nop : Handler where
  mnemonic := "nop"
  claims opcode := opcode = 0x90
  execute _ _ := Exec.advance 1

/-- CDQ: every bit of EDX becomes the sign of EAX. -/
def signToEdx : Handler where
  mnemonic := "cdq"
  claims opcode := opcode = 0x99
  execute _ _ := do
    let cpu ← Exec.state
    Exec.set .edx (if 0x80000000 ≤ cpu.registers.eax then 0xffffffff else 0)
    Exec.advance 1

/-- HLT. EIP moves on, so that a later run continues after it. -/
def halt : Handler where
  mnemonic := "hlt"
  claims opcode := opcode = 0xf4
  execute _ _ := do
    let cpu ← Exec.state
    Exec.emit (.halted cpu.eip)
    Exec.update fun cpu => { cpu with halted := true }.advance 1

/-- STD with opcode FD, else CLD. -/
def directionFlag : Handler where
  mnemonic := "cld/std"
  claims opcode := opcode = 0xfc ∨ opcode = 0xfd
  execute opcode _ := Exec.update fun cpu =>
    { cpu with flags := { cpu.flags with direction := opcode = 0xfd } }.advance 1

/-- IN and OUT. -/
def deviceTransfer : Handler where
  mnemonic := "in/out"
  claims opcode := (0xe4 ≤ opcode ∧ opcode ≤ 0xe7) ∨ (0xec ≤ opcode ∧ opcode ≤ 0xef)
  execute opcode _ := do
    let cpu ← Exec.state
    if opcode = 0xec then
      Exec.emit (.deviceRead cpu.registers.edx.toUInt16 0)
      Exec.update (·.setAl 0)
    else
      Exec.emit (.deviceSkipped opcode cpu.eip)
    Exec.advance 1

end Ia32.Handler
