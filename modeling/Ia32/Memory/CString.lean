import Ia32.Memory.Basic

/-!
# Strings that end in a zero byte

A string in memory is the bytes before the first zero byte, each read as the code
point of the same number. Guest pointers are not trusted: the null pointer, and a
scan that leaves the address space, give the empty string, and a scan ends after
`stringLimit` bytes.
-/

namespace Ia32.Memory

/-- The most bytes that a scan takes. -/
def stringLimit : Nat := 1000

/-- The bytes before the first zero byte, at most `limit` of them, from the address
`a` on; nothing if the scan leaves the address space first. -/
def scanString? (m : Memory) : (limit a : Nat) → Option (List UInt8)
  | 0, _ => some []
  | limit + 1, a =>
    if a < UInt32.size then
      let b := m.read8 (UInt32.ofNat a)
      if b = 0 then some [] else (m.scanString? limit (a + 1)).map (b :: ·)
    else none

/-- The string at `a`. -/
def readCString (m : Memory) (a : UInt32) : String :=
  if a = 0 then ""
  else String.ofList (((m.scanString? stringLimit a.toNat).getD []).map Char.ofUInt8)

end Ia32.Memory
