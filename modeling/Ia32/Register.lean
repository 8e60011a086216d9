import Ia32.Word

/-!
# General registers

The eight general registers in the order of their codes, and a bank of their
values. Registers are independent: `Registers.get_set_self`, `Registers.get_set_ne`.
-/

namespace Ia32

/-- A general register, in the order of the codes 0 to 7. -/
inductive Register where
  | eax
  | ecx
  | edx
  | ebx
  | esp
  | ebp
  | esi
  | edi
  deriving DecidableEq, Inhabited, Repr

namespace Register

/-- All registers by ascending code. -/
def all : List Register := [eax, ecx, edx, ebx, esp, ebp, esi, edi]

/-- The name in lowercase. -/
def name : Register → String
  | eax => "eax"
  | ecx => "ecx"
  | edx => "edx"
  | ebx => "ebx"
  | esp => "esp"
  | ebp => "ebp"
  | esi => "esi"
  | edi => "edi"

/-- The register of a code. -/
def ofCode : Fin 8 → Register
  | 0 => eax
  | 1 => ecx
  | 2 => edx
  | 3 => ebx
  | 4 => esp
  | 5 => ebp
  | 6 => esi
  | 7 => edi

/-- The register that a byte is the code of. -/
def ofCode? (code : UInt8) : Option Register :=
  if h : code.toNat < 8 then some (ofCode ⟨code.toNat, h⟩) else none

/-- The register of the low three bits of a byte. -/
def ofLowBits (b : UInt8) : Register := ofCode (low3 b.toNat)

end Register

/-- The values of the eight registers. -/
structure Registers where
  eax : UInt32 := 0
  ecx : UInt32 := 0
  edx : UInt32 := 0
  ebx : UInt32 := 0
  esp : UInt32 := 0
  ebp : UInt32 := 0
  esi : UInt32 := 0
  edi : UInt32 := 0
  deriving DecidableEq, Inhabited, Repr

namespace Registers

/-- The value of a register. -/
def get (rs : Registers) : Register → UInt32
  | .eax => rs.eax
  | .ecx => rs.ecx
  | .edx => rs.edx
  | .ebx => rs.ebx
  | .esp => rs.esp
  | .ebp => rs.ebp
  | .esi => rs.esi
  | .edi => rs.edi

/-- The bank with one register replaced. -/
def set (rs : Registers) (r : Register) (v : UInt32) : Registers :=
  match r with
  | .eax => { rs with eax := v }
  | .ecx => { rs with ecx := v }
  | .edx => { rs with edx := v }
  | .ebx => { rs with ebx := v }
  | .esp => { rs with esp := v }
  | .ebp => { rs with ebp := v }
  | .esi => { rs with esi := v }
  | .edi => { rs with edi := v }

@[simp] theorem get_set_self (rs : Registers) (r : Register) (v : UInt32) :
    (rs.set r v).get r = v := by
  cases r <;> rfl

@[simp] theorem get_set_ne (rs : Registers) {r r' : Register} (h : r ≠ r') (v : UInt32) :
    (rs.set r v).get r' = rs.get r' := by
  cases r <;> cases r' <;> first | rfl | exact absurd rfl h

/-- A bank is the values of its registers. -/
theorem ext_get {rs rs' : Registers} (h : ∀ r, rs.get r = rs'.get r) : rs = rs' := by
  cases rs
  cases rs'
  simp only [mk.injEq]
  exact ⟨h .eax, h .ecx, h .edx, h .ebx, h .esp, h .ebp, h .esi, h .edi⟩

end Registers

end Ia32
