import Ia32.Instruction.Basic

/-!
# Block operations and their prefixes

MOVS, STOS, LODS and SCAS work on one element and move the pointers past it, forward
or, with the direction flag set, backward. A repeat prefix only notes itself in the
state; from then on every dispatch of the operation does one element and counts ECX
down, and EIP stays on the operation until the count, or the comparison of SCAS, ends
the loop.
-/

namespace Ia32

/-- Whether the number of one bits of a byte is even. -/
def evenParity (b : UInt8) : Bool := (List.range 8).countP b.toNat.testBit % 2 = 0

/-- The flags after `l - r`, as a comparison sets them. -/
def Flags.compare (f : Flags) (l r : UInt8) : Flags :=
  let difference := l - r
  { f with
    zero := difference = 0
    carry := l < r
    sign := 0x80 ≤ difference
    overflow := (l ^^^ r) &&& (l ^^^ difference) &&& 0x80 ≠ 0
    parity := evenParity difference }

/-- The state with a pointer moved past an element of `size` bytes. -/
def Cpu.stride (cpu : Cpu) (r : Register) (size : UInt32) : Cpu :=
  cpu.set r (if cpu.flags.direction then cpu.get r - size else cpu.get r + size)

/-- The state after the last element of a repeated operation. -/
def Cpu.finishRepeat (cpu : Cpu) : Cpu := { cpu with rep := none }.advance 1

/-- The operations on one element of a block. -/
inductive BlockOp where
  /-- MOVSB: copies a byte from ESI to EDI. -/
  | copyByte
  /-- MOVSD: copies a dword from ESI to EDI. -/
  | copyDword
  /-- STOSB: stores AL at EDI. -/
  | fillByte
  /-- LODSB: loads AL from ESI. -/
  | loadByte
  /-- SCASB: compares AL with the byte at EDI. -/
  | scanByte
  deriving DecidableEq, Repr

namespace BlockOp

/-- The operation of an opcode. -/
def ofOpcode? (opcode : UInt8) : Option BlockOp :=
  if opcode = 0xa4 then some copyByte
  else if opcode = 0xa5 then some copyDword
  else if opcode = 0xaa then some fillByte
  else if opcode = 0xac then some loadByte
  else if opcode = 0xae then some scanByte
  else none

/-- The state after one element; the pointers move only past an element that was done. -/
def element? (op : BlockOp) (cpu : Cpu) : Except AccessViolation Cpu :=
  let source := cpu.registers.esi
  let target := cpu.registers.edi
  match op with
  | copyByte =>
    (cpu.memory.write8 target (cpu.memory.read8 source)).map fun memory =>
      ({ cpu with memory }.stride .esi 1).stride .edi 1
  | copyDword =>
    (cpu.memory.write32 target (cpu.memory.read32 source)).map fun memory =>
      ({ cpu with memory }.stride .esi 4).stride .edi 4
  | fillByte =>
    (cpu.memory.write8 target cpu.al).map fun memory => { cpu with memory }.stride .edi 1
  | loadByte => .ok ((cpu.setAl (cpu.memory.read8 source)).stride .esi 1)
  | scanByte =>
    .ok ({ cpu with flags := cpu.flags.compare cpu.al (cpu.memory.read8 target) }.stride .edi 1)

/-- Whether the comparison just made ends a repeated operation. -/
def settled (op : BlockOp) (kind : RepPrefix) (flags : Flags) : Bool :=
  op = scanByte &&
    match kind with
    | .rep => !flags.zero
    | .repne => flags.zero

/-- What follows an element: the next instruction, or the next element of a repetition. -/
def countDown (op : BlockOp) (cpu : Cpu) : Cpu :=
  match cpu.rep with
  | none => cpu.advance 1
  | some kind =>
    let counted := cpu.set .ecx (cpu.ecx - 1)
    if counted.ecx = 0 || op.settled kind counted.flags then counted.finishRepeat else counted

end BlockOp

namespace Handler

/-- REP and REPNE. A later prefix replaces an earlier one. -/
def repeatPrefix : Handler where
  mnemonic := "rep"
  claims opcode := opcode = 0xf2 ∨ opcode = 0xf3
  execute opcode _ := Exec.update fun cpu =>
    { cpu with rep := some (if opcode = 0xf2 then .repne else .rep) }.advance 1
  usesRep := true

/-- MOVSB, MOVSD, STOSB, LODSB and SCASB. A repetition of none does nothing. -/
def blockOperation : Handler where
  mnemonic := "movs/stos/lods/scas"
  claims opcode := (BlockOp.ofOpcode? opcode).isSome
  execute opcode _ := do
    let cpu ← Exec.state
    if cpu.rep.isSome ∧ cpu.ecx = 0 then
      Exec.update Cpu.finishRepeat
    else
      match BlockOp.ofOpcode? opcode with
      | none => Exec.fail (.unimplementedOpcode opcode cpu.eip)
      | some op =>
        Exec.attempt fun cpu => (op.element? cpu).mapError .accessViolation
        Exec.update op.countDown
  usesRep := true

end Handler

end Ia32
