import Ia32.Pe.Basic
import Ia32.Word

/-!
# Reading the bytes of a file

Little-endian numbers and strings at offsets of a file, and tables that end with a record
of their own. Reading past the end of the file fails.

A table is read record by record (`Bytes.records?`); as every record takes a byte at
least, there are no more of them than the file has bytes.
-/

namespace Ia32.Pe

namespace Bytes

/-- The byte at an offset. -/
def u8? (file : Bytes) (offset : Nat) : Option UInt8 := file[offset]?

/-- The word at an offset. -/
def u16? (file : Bytes) (offset : Nat) : Option UInt16 := do
  return word (← u8? file offset) (← u8? file (offset + 1))

/-- The dword at an offset. -/
def u32? (file : Bytes) (offset : Nat) : Option UInt32 := do
  return dword (← u8? file offset) (← u8? file (offset + 1)) (← u8? file (offset + 2))
    (← u8? file (offset + 3))

/-- The dword at an offset, as an offset itself. -/
def offset? (file : Bytes) (offset : Nat) : Option Nat := (u32? file offset).map UInt32.toNat

/-- The text of some bytes up to the first zero byte, if it is UTF-8. -/
def text? (bytes : Bytes) : Option String :=
  String.fromUTF8? ⟨bytes.takeWhile (· ≠ 0)⟩

/-- The string at an offset of the file: it runs to the next zero byte, or to the end. The
string at the end itself is empty. -/
def string? (file : Bytes) (offset : Nat) : Option String :=
  if offset ≤ file.size then text? (file.extract offset file.size) else none

/-- The records of `width` bytes from an offset on, up to the one that `record?` calls the
last by giving no record. There are at most `limit` of them. -/
def recordsUpTo? {α : Type} (width : Nat) (record? : Nat → Option (Option α)) :
    (limit offset : Nat) → Option (List α)
  | 0, _ => none
  | limit + 1, offset =>
    match record? offset with
    | none => none
    | some none => some []
    | some (some a) => (recordsUpTo? width record? limit (offset + width)).map (a :: ·)

/-- The records of a table that starts at an offset of the file. -/
def records? {α : Type} (file : Bytes) (width : Nat) (record? : Nat → Option (Option α))
    (offset : Nat) : Option (List α) :=
  recordsUpTo? width record? (file.size + 1) offset

end Bytes

end Ia32.Pe
