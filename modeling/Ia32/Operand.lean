import Ia32.Cpu.Basic

/-!
# Memory operands

A ModRM byte, and where it asks for one a SIB byte, names an address form: base
register, scaled index and width of the displacement (`AddressForm.ofModRm`). The
form in a state gives the address and the length of the instruction. The ModRM byte
follows the opcode, a SIB byte follows it, and the displacement comes last.

* `Register.decode_fields`: no field of these bytes is refused as the code of a register.
* `Cpu.instructionLength?_eq`: no instruction is refused a length.
-/

namespace Ia32

/-- What keeps an operand from being decoded. -/
inductive DecodeError where
  /-- A register code past 7. -/
  | invalidRegister (code : UInt8)
  /-- A register where an operand in memory is needed. -/
  | registerOperand (modrm : UInt8)
  deriving DecidableEq, Repr

/-- The text of a decoding error. -/
def DecodeError.message : DecodeError → String
  | invalidRegister code => "Invalid register code: " ++ toString code.toNat
  | registerOperand modrm =>
    "ModRM " ++ hex8 modrm ++ " names a register where a memory operand is required"

/-- The register that `code` names. -/
def Register.decode (code : UInt8) : Except DecodeError Register :=
  match ofCode? code with
  | some r => .ok r
  | none => .error (.invalidRegister code)

/-- Three bits are the code of a register. -/
theorem Register.decode_and_seven (b : UInt8) : decode (b &&& 7) = .ok (ofCode (low3 b.toNat)) := by
  have hvalue : (b &&& 7).toNat = b.toNat % 8 := by
    rw [UInt8.toNat_and]
    exact Nat.and_two_pow_sub_one_eq_mod b.toNat 3
  have hcode : (b &&& 7).toNat < 8 := by omega
  have hfield : (⟨(b &&& 7).toNat, hcode⟩ : Fin 8) = low3 b.toNat := Fin.ext hvalue
  rw [decode, ofCode?, dif_pos hcode, hfield]

/-- The three fields of a ModRM byte. -/
structure ModRm where
  mode : Fin 4
  reg : Fin 8
  rm : Fin 8
  deriving DecidableEq, Repr

namespace ModRm

/-- The fields of a byte, from the high bits to the low ones. -/
def ofByte (b : UInt8) : ModRm where
  mode := low2 (b.toNat / 64)
  reg := low3 (b.toNat / 8)
  rm := low3 b.toNat

/-- Whether the operand is a register. -/
def isRegister (m : ModRm) : Bool := m.mode.val = 3

/-- Whether a SIB byte follows. -/
def hasSib (m : ModRm) : Bool := m.mode.val ≠ 3 && m.rm.val = 4

end ModRm

/-- The three fields of a SIB byte. -/
structure Sib where
  scale : Fin 4
  index : Fin 8
  base : Fin 8
  deriving DecidableEq, Repr

namespace Sib

/-- The fields of a byte, from the high bits to the low ones. -/
def ofByte (b : UInt8) : Sib where
  scale := low2 (b.toNat / 64)
  index := low3 (b.toNat / 8)
  base := low3 b.toNat

/-- The factor of the index: 1, 2, 4 or 8. -/
def factor (s : Sib) : UInt32 :=
  match s.scale with
  | 0 => 1
  | 1 => 2
  | 2 => 4
  | 3 => 8

/-- The index register and its factor; the code of ESP stands for no index. -/
def index? (s : Sib) : Option (Register × UInt32) :=
  if s.index.val = 4 then none else some (Register.ofCode s.index, s.factor)

end Sib

/-- **No field is refused as the code of a register**: decoding the bits of a field gives the
register that the field stands for. -/
theorem Register.decode_fields (b : UInt8) :
    decode (b &&& 7) = .ok (ofCode (ModRm.ofByte b).rm) ∧
      decode (b >>> 3 &&& 7) = .ok (ofCode (ModRm.ofByte b).reg) ∧
      decode (b &&& 7) = .ok (ofCode (Sib.ofByte b).base) ∧
      decode (b >>> 3 &&& 7) = .ok (ofCode (Sib.ofByte b).index) := by
  have hlow := decode_and_seven b
  have hmiddle := decode_and_seven (b >>> 3)
  have hshift : (b >>> 3).toNat = b.toNat / 8 := by
    rw [UInt8.toNat_shiftRight]
    exact Nat.shiftRight_eq_div_pow b.toNat 3
  rw [hshift] at hmiddle
  exact ⟨hlow, hmiddle, hlow, hmiddle⟩

/-- The width of a displacement. -/
inductive Displacement where
  | absent
  | byte
  | dword
  deriving DecidableEq, Repr

/-- The number of bytes a displacement takes. -/
def Displacement.size : Displacement → UInt32
  | absent => 0
  | byte => 1
  | dword => 4

/-- The displacement of a width that is stored at `a`. -/
def Displacement.read (m : Memory) (a : UInt32) : Displacement → UInt32
  | absent => 0
  | byte => signExtend (m.read8 a)
  | dword => m.read32 a

/-- A form of address: the sum of an optional base register, an optional register
times a scale, and a displacement. `sib` says whether a SIB byte spells it. -/
structure AddressForm where
  sib : Bool
  base : Option Register
  index : Option (Register × UInt32)
  displacement : Displacement
  deriving DecidableEq, Repr

namespace AddressForm

/-- The base of a form: none for code 5 of the base field in mode 0, else the
register of that field. -/
def baseOf (mode : Fin 4) (field : Fin 8) : Option Register :=
  if mode.val = 0 ∧ field.val = 5 then none else some (Register.ofCode field)

/-- The width of the displacement; in mode 0 it stands in for a missing base. -/
def displacementOf (mode : Fin 4) (base : Option Register) : Displacement :=
  match mode with
  | 0 => if base.isNone then .dword else .absent
  | 1 => .byte
  | _ => .dword

/-- The form that a ModRM byte names, `sib` being the fields of the byte after it. -/
def ofModRm (m : ModRm) (sib : Sib) : AddressForm :=
  let base := baseOf m.mode (if m.hasSib then sib.base else m.rm)
  { sib := m.hasSib
    base
    index := if m.hasSib then sib.index? else none
    displacement := displacementOf m.mode base }

/-- The number of bytes before the displacement: opcode, ModRM and SIB. -/
def headLength (f : AddressForm) : UInt32 := if f.sib then 3 else 2

/-- The length of an instruction that ends with this form. -/
def length (f : AddressForm) : UInt32 := f.headLength + f.displacement.size

/-- The address of the form in a state, for an instruction at `start`. -/
def address (f : AddressForm) (cpu : Cpu) (start : UInt32) : UInt32 :=
  (f.base.map cpu.get).getD 0 +
    (f.index.map fun (r, scale) => cpu.get r * scale).getD 0 +
    f.displacement.read cpu.memory (start + f.headLength)

end AddressForm

namespace Cpu

/-- The address form of the instruction at `start`, whose ModRM byte is `modrm`. -/
def addressForm? (cpu : Cpu) (modrm : UInt8) (start : UInt32) : Except DecodeError AddressForm :=
  let m := ModRm.ofByte modrm
  if m.isRegister then .error (.registerOperand modrm)
  else .ok (AddressForm.ofModRm m (.ofByte (cpu.memory.read8 (start + 2))))

/-- The address of the memory operand of the instruction at `start`. -/
def effectiveAddress (cpu : Cpu) (modrm : UInt8) (start : UInt32) : Except DecodeError UInt32 :=
  (cpu.addressForm? modrm start).map (·.address cpu start)

/-- The length of the instruction at `start`: opcode, ModRM byte and what follows it. A register
is spelled out by the ModRM byte alone. -/
def instructionLength? (cpu : Cpu) (modrm : UInt8) (start : UInt32) : Except DecodeError UInt32 :=
  if (ModRm.ofByte modrm).isRegister then .ok 2
  else (cpu.addressForm? modrm start).map (·.length)

/-- The length that an instruction has, whatever its bytes (`instructionLength?_eq`). -/
def instructionLength (cpu : Cpu) (modrm : UInt8) (start : UInt32) : UInt32 :=
  let m := ModRm.ofByte modrm
  if m.isRegister then 2
  else (AddressForm.ofModRm m (.ofByte (cpu.memory.read8 (start + 2)))).length

/-- **Every instruction has a length.** Only a register keeps an address form from being decoded,
and a register needs none. -/
theorem instructionLength?_eq (cpu : Cpu) (modrm : UInt8) (start : UInt32) :
    cpu.instructionLength? modrm start = .ok (cpu.instructionLength modrm start) := by
  unfold instructionLength? instructionLength addressForm?
  cases hregister : (ModRm.ofByte modrm).isRegister <;> simp [hregister, Except.map]

end Cpu

end Ia32
