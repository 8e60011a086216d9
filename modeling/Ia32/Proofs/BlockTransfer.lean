import Ia32.Proofs.Repetition

/-!
# Repeated copies, fills and loads

* `contents_copyByte_overlapping`: a copy onto what follows its source repeats the start of it.
* `repeat_transfers`: **a repeated MOVS, STOS or LODS is its elements one after the other**: ECX
  many of them, in the direction that the flag gives, one dispatch each.
-/

namespace Ia32

/-- A forward copy to `d` bytes above its source repeats the first `d` bytes of it. -/
theorem BlockOp.contents_copyByte_overlapping {cpu : Cpu} {d n : Nat}
    (hforward : cpu.flags.direction = false)
    (hedi : cpu.registers.edi = cpu.registers.esi + UInt32.ofNat d) (hd : 0 < d)
    (hfit : d + n ≤ 0x100000000) {i : Nat} (hi : i < d + n) :
    copyByte.contents cpu n (cpu.registers.esi + UInt32.ofNat i) =
      cpu.memory.read8 (cpu.registers.esi + UInt32.ofNat (i % d)) := by
  -- on the bytes copied: the one read next is that of its place in the period
  induction n generalizing i with
  | zero =>
    have hi' : i < d := hi
    rw [contents, Nat.mod_eq_of_lt hi']
  | succ n ih =>
    have hsource : copyByte.source cpu n = cpu.registers.esi + UInt32.ofNat n := by
      simp [source, Cpu.past, hforward, sourceStep, Cpu.get, Registers.get]
    have htarget : copyByte.target cpu n = cpu.registers.esi + UInt32.ofNat (d + n) := by
      simp [target, Cpu.past, hforward, targetStep, Cpu.get, Registers.get, hedi, UInt32.ofNat_add,
        UInt32.add_assoc]
    have hstores : copyByte.StoresAt cpu n (cpu.registers.esi + UInt32.ofNat i) ↔ i = d + n := by
      have hone {a b : UInt32} : a - b < 1 ↔ a = b := by grind
      rw [StoresAt, htarget, storeSize, hone, UInt32.add_right_inj, ← UInt32.toNat_inj,
        UInt32.toNat_ofNat_of_lt' (by simp only [UInt32.size]; omega),
        UInt32.toNat_ofNat_of_lt' (by simp only [UInt32.size]; omega)]
    rw [contents]
    by_cases hlast : i = d + n
    · -- the byte just copied is `d` places above the one it was read from
      rw [if_pos (hstores.mpr hlast), if_neg (by decide), hsource, htarget, hlast,
        UInt32.sub_self, UInt32.add_zero, ih (by omega) (by omega), Nat.add_mod_left]
    · rw [if_neg (fun h => hlast (hstores.mp h)), ih (by omega) (by omega)]

namespace InstructionSet

open BlockOp

/-- **A repeat prefix before MOVSB, MOVSD, STOSB or LODSB.** If every element can be stored and
none is stored over the operation, then after a dispatch for the prefix and one for every
element, or one to find that there is none,

* every dispatch has succeeded, EIP was on the operation between them and is past it now, the
  prefix is gone and ECX is zero;
* the bytes in memory are those of transfers done one after the other, so that a copy onto its
  own source repeats what it has copied before;
* ESI and EDI have moved past the elements that they point to, AL is the last byte loaded, and
  no other register, flag or protection has changed. -/
theorem repeat_transfers {op : BlockOp} {kind : RepPrefix} {cpu : Cpu} (hscan : op ≠ .scanByte)
    (hkind : cpu.opcode = kind.opcode) (hop : cpu.codeByte 1 = op.opcode)
    (hwritable : ∀ i < cpu.ecx.toNat, cpu.memory.Writable (op.target cpu i) op.storeSize)
    (hcode : ∀ i < cpu.ecx.toNat, ¬ op.StoresAt cpu i (cpu.eip + 1))
    (linkage : Nat → Linkage) :
    let n := cpu.ecx.toNat
    let dispatches := 1 + max n 1
    let final := standard.after linkage cpu dispatches
    standard.Succeeds linkage cpu dispatches ∧
    (∀ j, 0 < j → j < dispatches → (standard.after linkage cpu j).eip = cpu.eip + 1) ∧
    final.eip = cpu.eip + 2 ∧ final.rep = none ∧
    (∀ a, final.memory.read8 a = op.contents cpu n a) ∧
    final.registers =
      { (cpu.setAl (op.alAfter cpu n)).registers with
        ecx := 0
        esi := op.source cpu n
        edi := op.target cpu n } ∧
    final.al = op.alAfter cpu n ∧
    final.registers.eax / 0x100 = cpu.registers.eax / 0x100 ∧
    final.flags = cpu.flags ∧
    (∀ a, final.memory.protectionAt a = cpu.memory.protectionAt a) ∧
    final.halted = cpu.halted ∧ final.frames = cpu.frames ∧
    final.retired = cpu.retired + UInt64.ofNat dispatches := by
  intro n dispatches final
  -- only comparisons can settle a loop, so the count is what ends it
  have hgoesOn : ∀ i, i + 1 < n → op.settled kind (op.flagsAfter cpu (i + 1)) = false := by
    intro i _
    simp [settled, hscan]
  have h : Repeats linkage op cpu n :=
    repeats hkind hop (Nat.le_refl n) hcode hgoesOn (.inl rfl) hwritable
  have hecx : cpu.ecx - UInt32.ofNat n = 0 := by
    rw [UInt32.ofNat_toNat, UInt32.sub_self]
  have hregisters := h.reached.registers
  rw [registersAfter, hecx] at hregisters
  have hflags := h.reached.flags
  rw [flagsAfter_of_ne hscan] at hflags
  refine ⟨h.succeeds, h.stays, h.eip, h.rep, h.reached.read8, hregisters, h.reached.al, ?_, hflags,
    h.protectionAt, h.reached.halted, h.reached.frames, h.retired⟩
  rw [h.reached.eax, Cpu.div_setAl]

/-- A processor about to copy three bytes to one byte above them. -/
def overlappingCopy : Cpu where
  registers := { ecx := 3, esi := 0x2000, edi := 0x2001 }
  eip := 0x1000
  memory := ((({} : Memory).store8 0x1000 0xf3).store8 0x1001 0xa4).store8 0x2000 0x11

theorem repeat_transfers_overlapping :
    let final := standard.after (fun _ => {}) overlappingCopy 4
    final.eip = 0x1002 ∧ final.registers = { ecx := 0, esi := 0x2003, edi := 0x2004 } ∧
      final.memory.read8 0x2003 = 0x11 := by
  have hforward : overlappingCopy.flags.direction = false := rfl
  have hkind : overlappingCopy.opcode = RepPrefix.rep.opcode := by
    simp [overlappingCopy, Cpu.opcode, Memory.read8_store8, RepPrefix.opcode]
  have hop : overlappingCopy.codeByte 1 = copyByte.opcode := by
    simp [overlappingCopy, Cpu.codeByte, Memory.read8_store8, BlockOp.opcode]
  have hwritable : ∀ i < overlappingCopy.ecx.toNat,
      overlappingCopy.memory.Writable (copyByte.target overlappingCopy i) copyByte.storeSize := by
    intro i _ a _
    simp [overlappingCopy]
  have hcode : ∀ i < overlappingCopy.ecx.toNat,
      ¬ copyByte.StoresAt overlappingCopy i (overlappingCopy.eip + 1) := by decide
  obtain ⟨-, -, heip, -, hread8, hregisters, -⟩ :=
    repeat_transfers (by decide) hkind hop hwritable hcode fun _ => {}
  have hrepeated : copyByte.contents overlappingCopy 3 (0x2000 + UInt32.ofNat 3) =
      overlappingCopy.memory.read8 (0x2000 + UInt32.ofNat (3 % 1)) :=
    contents_copyByte_overlapping hforward rfl (by decide) (by decide) (by decide)
  refine ⟨heip, hregisters, (hread8 _).trans (hrepeated.trans ?_)⟩
  simp [overlappingCopy]

end InstructionSet

end Ia32
