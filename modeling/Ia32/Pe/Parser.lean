import Ia32.Pe.Bytes
import Ia32.Text.Numeral

/-!
# Reading portable executables

`Image.parse?` reads the headers, the section table and the import directory of a file.
All numbers are little-endian, and reading past the end of the file fails. A failure has
no cause: a file that cannot be read is malformed. Of the data directories only that of the
imports is read, and what the others hold makes no file malformed.
-/

namespace Ia32.Pe

/-- The two formats of a PE file: PE32, and PE32+ with addresses of eight bytes. -/
inductive Format where
  | pe32
  | pe32Plus
  deriving DecidableEq, Repr

namespace Format

/-- The format that a magic number stands for. -/
def ofMagic? (magic : UInt16) : Option Format :=
  if magic = 0x10b then some pe32 else if magic = 0x20b then some pe32Plus else none

/-- The number of bytes of an address. -/
def addressSize : Format → Nat
  | pe32 => 4
  | pe32Plus => 8

/-- The offset of the number of data directories in the optional header. -/
def directoryCountOffset : Format → Nat
  | pe32 => 92
  | pe32Plus => 108

end Format

/-- The optional header, with what reading the import directory needs. -/
structure RawOptionalHeader where
  format : Format
  header : Header32
  fileAlignment : Nat
  /-- The import directory's place relative to the base, if there is one. -/
  importDirectory : Option UInt32

namespace RawOptionalHeader

/-- The import directory's place: the second of the data directories, of which there are at
most sixteen. One whose place and size are zero is absent. -/
def importDirectory? (file : Bytes) (start count : Nat) : Option (Option UInt32) := do
  guard (count ≤ 16 ∧ start + 8 * count ≤ file.size)
  if count < 2 then return none
  let place ← Bytes.u32? file (start + 8)
  let size ← Bytes.u32? file (start + 12)
  return if place = 0 ∧ size = 0 then none else some place

/-- Reads an optional header. The base of a PE32+ image is not needed and not read. -/
def parse? (file : Bytes) (start : Nat) : Option RawOptionalHeader := do
  let format ← Format.ofMagic? (← Bytes.u16? file start)
  let entry ← Bytes.u32? file (start + 16)
  let base ← Bytes.u32? file (start + 28)
  let fileAlignment ← Bytes.offset? file (start + 36)
  let headerSize ← Bytes.u32? file (start + 60)
  let count ← Bytes.offset? file (start + format.directoryCountOffset)
  let importDirectory ← importDirectory? file (start + format.directoryCountOffset + 4) count
  return { format, header := { base, entry, headerSize }, fileAlignment, importDirectory }

/-- The header that loading sees. -/
def toOptionalHeader (raw : RawOptionalHeader) : OptionalHeader :=
  match raw.format with
  | .pe32 => .pe32 raw.header
  | .pe32Plus => .pe32Plus

end RawOptionalHeader

namespace Section

/-- The offset in the string table that stands behind the slash of a section's name: a decimal
number, or behind a second slash a number in base 64. -/
def stringOffset? : List Char → Option Nat
  | '/' :: cs => base64? cs
  | cs => unsigned? cs

/-- The name of a section. A name that starts with a slash goes on with the offset of the
name in the string table. -/
def name? (file : Bytes) (strings offset : Nat) : Option (Option String) :=
  let field := file.extract offset (offset + 8)
  if field[0]? = some '/'.toUInt8 then do
    let numeral ← Bytes.text? (field.extract 1 8)
    let name ← Bytes.string? file (strings + (← stringOffset? numeral.toList))
    return some name
  else some (Bytes.text? field)

/-- Reads an entry of the section table. -/
def parse? (file : Bytes) (strings offset : Nat) : Option Section := do
  let virtualSize ← Bytes.u32? file (offset + 8)
  let virtualAddress ← Bytes.u32? file (offset + 12)
  let rawSize ← Bytes.u32? file (offset + 16)
  let rawPointer ← Bytes.u32? file (offset + 20)
  let characteristics ← Bytes.u32? file (offset + 36)
  let name ← name? file strings offset
  return { name, virtualSize, virtualAddress, rawSize, rawPointer, characteristics }

/-- The section's place in the file, rounded down to the least size of a disk sector. -/
def sectorPointer (s : Section) : Nat := s.rawPointer.toNat - s.rawPointer.toNat % 0x200

/-- `n`, rounded up to a multiple of `alignment`. -/
def roundUp (n alignment : Nat) : Nat := (n + (alignment - 1)) / alignment * alignment

/-- The number of bytes that the section takes from the file when it is mapped. -/
def mappedSize (s : Section) (fileAlignment : Nat) : Nat :=
  let fromFile :=
    min (roundUp (s.rawPointer.toNat + s.rawSize.toNat) fileAlignment - s.sectorPointer)
      (roundUp s.rawSize.toNat 0x1000)
  if s.virtualSize = 0 then fromFile else min fromFile (roundUp s.virtualSize.toNat 0x1000)

/-- Whether the section takes the address `place`, relative to the base, from the file. -/
def maps (s : Section) (fileAlignment place : Nat) : Bool :=
  s.virtualAddress.toNat ≤ place && place < s.virtualAddress.toNat + s.mappedSize fileAlignment

end Section

/-- Whether `n` is a power of two. -/
def isPowerOfTwo (n : Nat) : Bool := n ≠ 0 && 1 <<< n.log2 = n

/-- The offset in the file of a place relative to the base, by the first section that maps it. -/
def fileOffset? (sections : List Section) (fileAlignment place : Nat) : Option Nat := do
  guard (isPowerOfTwo fileAlignment)
  let s ← sections.find? (·.maps fileAlignment place)
  return place - s.virtualAddress.toNat + s.sectorPointer

/-- An entry of the import directory: all symbols imported from one library. -/
structure ImportDirectoryEntry where
  lookupTable : Nat
  name : Nat
  addressTable : Nat

namespace ImportDirectoryEntry

/-- Reads an entry of the import directory; one of zeros is the last. -/
def parse? (file : Bytes) (offset : Nat) : Option (Option ImportDirectoryEntry) := do
  let lookupTable ← Bytes.offset? file offset
  let stamp ← Bytes.offset? file (offset + 4)
  let forwarder ← Bytes.offset? file (offset + 8)
  let name ← Bytes.offset? file (offset + 12)
  let addressTable ← Bytes.offset? file (offset + 16)
  if lookupTable = 0 ∧ stamp = 0 ∧ forwarder = 0 ∧ name = 0 ∧ addressTable = 0 then return none
  return some { lookupTable, name, addressTable }

/-- Reads an address of a table. -/
def address? (file : Bytes) (format : Format) (offset : Nat) : Option Nat := do
  let low ← Bytes.offset? file offset
  match format with
  | .pe32 => return low
  | .pe32Plus => return low + 0x100000000 * (← Bytes.offset? file (offset + 4))

/-- Reads an entry of a lookup table; zero is the last. An entry whose top bit is set imports
by ordinal. Any other holds the place of a hint and a name, and one whose place is not mapped
imports nothing. -/
def symbol? (file : Bytes) (format : Format) (map? : Nat → Option Nat) (offset : Nat) :
    Option (Option (Option String)) := do
  let entry ← address? file format offset
  if entry = 0 then return none
  if entry.testBit (8 * format.addressSize - 1) then
    return some (some ("ORDINAL " ++ toString (entry % 0x10000)))
  match map? (entry % 0x80000000) with
  | none => return some none
  | some hint =>
    let _ ← Bytes.u16? file hint
    return some (some (← Bytes.string? file (hint + 2)))

/-- The symbols that an entry of the directory imports. The lookup table may be missing, in
which case the address table takes its place; the address table has to be there. -/
def imports? (file : Bytes) (format : Format) (map? : Nat → Option Nat)
    (entry : ImportDirectoryEntry) : Option (List Import) := do
  let library ← Bytes.string? file (← map? entry.name)
  let addressTable ← map? entry.addressTable
  let lookupTable := (map? entry.lookupTable).getD addressTable
  let symbols ← Bytes.records? file format.addressSize (symbol? file format map?) lookupTable
  let _ ← Bytes.records? file format.addressSize
    (fun offset => do
      let address ← address? file format offset
      return if address = 0 then none else some address)
    addressTable
  return (symbols.filterMap id).mapIdx fun i symbol =>
    { symbol, library, slot := entry.addressTable + format.addressSize * i }

end ImportDirectoryEntry

namespace Image

/-- Reads the import directory. -/
def imports? (file : Bytes) (raw : RawOptionalHeader) (sections : List Section) :
    Option (List Import) :=
  match raw.importDirectory with
  | none => some []
  | some place => do
    let map? := fileOffset? sections raw.fileAlignment
    let start ← map? place.toNat
    let entries ← Bytes.records? file 20 (ImportDirectoryEntry.parse? file) start
    let imports ← entries.mapM (ImportDirectoryEntry.imports? file raw.format map?)
    return imports.flatten

/-- Reads a PE file. -/
def parse? (file : Bytes) : Option Image := do
  guard (Bytes.u16? file 0 = some 0x5a4d)
  let start ← Bytes.offset? file 0x3c
  guard (Bytes.u32? file start = some 0x4550)
  guard (0x80 ≤ file.size)
  let machine ← Bytes.u16? file (start + 4)
  let sectionCount ← Bytes.u16? file (start + 6)
  let symbolTable ← Bytes.offset? file (start + 12)
  let symbolCount ← Bytes.offset? file (start + 16)
  let optionalSize ← Bytes.u16? file (start + 20)
  let _ ← Bytes.u16? file (start + 22)
  let raw? ← if optionalSize = 0 then some none
    else (RawOptionalHeader.parse? file (start + 24)).map some
  guard (sectionCount.toNat ≤ file.size / 40)
  let sections ← (List.range sectionCount.toNat).mapM fun i =>
    Section.parse? file (symbolTable + 18 * symbolCount) (start + 24 + optionalSize.toNat + 40 * i)
  let imports ← match raw? with
    | none => some []
    | some raw => imports? file raw sections
  return { machine, optional := raw?.map (·.toOptionalHeader), sections, imports }

end Image

end Ia32.Pe
