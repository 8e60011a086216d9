import Ia32.Cpu.Basic

/-!
# Laws of the processor state

The changes of the state that are not stores leave the memory as it is. A change of AL
leaves the rest of EAX alone (`div_setAl`), and of two changes the later one wins
(`eax_setAl_setAl`).
-/

namespace Ia32.Cpu

attribute [ext] Cpu

variable (cpu : Cpu) (r : Register) (a n v : UInt32) (b : UInt8)

@[simp] theorem memory_set : (cpu.set r v).memory = cpu.memory := rfl

@[simp] theorem memory_jump : (cpu.jump a).memory = cpu.memory := rfl

@[simp] theorem memory_retire : cpu.retire.memory = cpu.memory := rfl

/-! ## The instruction at EIP, seen without the pending prefix -/

@[simp] theorem memory_dropRep : cpu.dropRep.memory = cpu.memory := rfl

@[simp] theorem eip_dropRep : cpu.dropRep.eip = cpu.eip := rfl

@[simp] theorem get_dropRep : cpu.dropRep.get r = cpu.get r := rfl

@[simp] theorem codeByte_dropRep : cpu.dropRep.codeByte a = cpu.codeByte a := rfl

@[simp] theorem codeDword_dropRep : cpu.dropRep.codeDword a = cpu.codeDword a := rfl

/-! ## AL -/

theorem toNat_setAl : (cpu.setAl b).registers.eax.toNat =
    cpu.registers.eax.toNat - cpu.registers.eax.toNat % 0x100 + b.toNat := by
  have hb := b.toNat_lt
  have heax := cpu.registers.eax.toNat_lt
  have hle : cpu.registers.eax % 0x100 ≤ cpu.registers.eax := by
    rw [UInt32.le_iff_toNat_le, UInt32.toNat_mod]
    exact Nat.mod_le _ _
  change (cpu.registers.eax - cpu.registers.eax % 0x100 + b.toUInt32).toNat = _
  rw [UInt32.toNat_add, UInt32.toNat_sub_of_le _ _ hle, UInt32.toNat_mod, UInt8.toNat_toUInt32]
  simp only [UInt32.reduceToNat]
  omega

@[simp] theorem al_setAl : (cpu.setAl b).al = b := by
  have hb := b.toNat_lt
  rw [← UInt8.toNat_inj, al, UInt32.toNat_toUInt8, toNat_setAl]
  omega

/-- The upper three bytes of EAX are not those of AL. -/
theorem div_setAl : (cpu.setAl b).registers.eax / 0x100 = cpu.registers.eax / 0x100 := by
  have hb := b.toNat_lt
  rw [← UInt32.toNat_inj, UInt32.toNat_div, UInt32.toNat_div, toNat_setAl]
  simp only [UInt32.reduceToNat]
  omega

/-- EAX after AL has been replaced twice, the second time by `b`. -/
theorem eax_setAl_setAl {b' : UInt8} {cpu' : Cpu}
    (h : cpu'.registers.eax = (cpu.setAl b').registers.eax) :
    (cpu'.setAl b).registers.eax = (cpu.setAl b).registers.eax := by
  have hb' := b'.toNat_lt
  rw [← UInt32.toNat_inj, toNat_setAl, toNat_setAl, h, toNat_setAl]
  omega

@[simp] theorem setAl_al : cpu.setAl cpu.al = cpu := by
  have heax : (cpu.setAl cpu.al).registers.eax = cpu.registers.eax := by
    rw [← UInt32.toNat_inj, toNat_setAl, al, UInt32.toNat_toUInt8]
    omega
  change
    { cpu with registers := { cpu.registers with eax := (cpu.setAl cpu.al).registers.eax } } = cpu
  rw [heax]

end Ia32.Cpu
