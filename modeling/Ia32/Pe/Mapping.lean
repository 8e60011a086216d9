import Ia32.Exec
import Ia32.Imports
import Ia32.Pe.PageClaims

/-!
# Mapping an image

An image is mapped at the base it asks for. Headers and sections are stored first, then
every imported symbol is bound: each new name gets a thunk, a lone RET instruction in a
region of its own, and the import's address slot is pointed at the thunk of its name.
Protections come last, so that slots in read-only sections can be filled in; a page that
several ranges claim gets the strictest of their protections (`PageClaims`).
-/

namespace Ia32

/-- Why an image is not loaded. -/
inductive LoadError where
  /-- The file is no PE file. -/
  | malformed
  | unsupportedMachine (machine : UInt16)
  | unsupported64Bit
  | missingOptionalHeader
  /-- The file ends before the data of a section does. -/
  | truncated (name : String) (offset size length : Nat)
  /-- An address past the end of the 32-bit address space. -/
  | addressOverflow (address : Nat)
  /-- A store that the memory refuses. -/
  | refused (violation : AccessViolation)
  deriving DecidableEq, Repr

/-- The text of a failure to load. -/
def LoadError.message : LoadError → String
  | malformed => "Malformed PE image"
  | unsupportedMachine machine =>
    "Unsupported machine type " ++ hex16 machine ++ " (expected i386)"
  | unsupported64Bit => "PE32+ images are not supported"
  | missingOptionalHeader => "Image is missing its optional header"
  | truncated name offset size length =>
    "Section " ++ name ++ " raw data " ++ hex 1 offset ++ "+" ++ hex 1 size ++
      " exceeds image length " ++ hex 1 length
  | addressOverflow address =>
    "Image does not fit in the 32-bit address space at " ++ hex 1 address
  | refused violation => "Failed to map image: " ++ violation.message

/-- A mapped image: its entry point and base, and the symbols bound for it. -/
structure LoadedImage where
  entry : UInt32
  base : UInt32
  imports : Imports
  deriving DecidableEq

namespace Pe

/-- The machine number of the 386 family. -/
def machine386 : UInt16 := 0x14c

/-- The distance between thunks. -/
def thunkStride : UInt32 := 4

/-- The address at a place relative to the base. -/
def rebase (base : UInt32) (place : Nat) : Except LoadError UInt32 :=
  let address := base.toNat + place
  if address < UInt32.size then .ok (UInt32.ofNat address) else .error (.addressOverflow address)

namespace Section

/-- The name in messages. -/
def label (s : Section) : String := s.name.getD "?"

/-- The protection that the characteristics ask for: code is never writable. -/
def protection (s : Section) : Protection :=
  if s.characteristics &&& 0x20000020 ≠ 0 then .readExecute
  else if s.characteristics &&& 0x80000000 = 0 then .readOnly
  else .readWrite

/-- The number of bytes in memory. -/
def span (s : Section) : UInt32 := max s.virtualSize s.rawSize

/-- The bytes that the section takes from the file. -/
def rawData (s : Section) (file : Bytes) : Except LoadError (List UInt8) :=
  let offset := s.rawPointer.toNat
  let size := s.rawSize.toNat
  if offset + size ≤ file.size then .ok (file.extract offset (offset + size)).toList
  else .error (.truncated s.label offset size file.size)

/-- Stores a section and gives the range it takes. -/
def map (s : Section) (file : Bytes) (base : UInt32) : Exec LoadError PageRange := do
  let address ← Exec.liftExcept (rebase base s.virtualAddress.toNat)
  let bytes ← Exec.liftExcept (s.rawData file)
  Exec.store .refused (·.writeBytes address bytes)
  Exec.emit (.sectionMapped s.label address s.span s.protection)
  return ⟨address, s.span, s.protection⟩

end Section

/-- The symbols bound so far, and the address of the next thunk. -/
structure Binding where
  imports : Imports := ∅
  nextThunk : UInt32

namespace Binding

/-- The thunk of a name; a name that is new gets one, which is stored. -/
def thunk (binding : Binding) (symbol : String) : Exec LoadError (UInt32 × Binding) :=
  match binding.imports.address? symbol with
  | some thunk => pure (thunk, binding)
  | none => do
    let thunk := binding.nextThunk
    Exec.store .refused (·.write8 thunk 0xc3)
    return (thunk, ⟨binding.imports.insert symbol thunk, thunk + thunkStride⟩)

/-- Binds an imported symbol: points its slot at the thunk of its name. -/
def bind (base : UInt32) (binding : Binding) (i : Import) : Exec LoadError Binding := do
  let (thunk, binding) ← binding.thunk i.symbol
  let slot ← Exec.liftExcept (rebase base i.slot)
  Exec.store .refused (·.write32 slot thunk)
  Exec.emit (.importBound i.library i.symbol thunk slot)
  return binding

end Binding

namespace Image

/-- The optional header of an image that can be run. -/
def header (image : Image) : Except LoadError Header32 :=
  match image.optional with
  | some .pe32Plus => .error .unsupported64Bit
  | some (.pe32 header) =>
    if image.machine = machine386 then .ok header else .error (.unsupportedMachine image.machine)
  | none =>
    if image.machine = machine386 then .error .missingOptionalHeader
    else .error (.unsupportedMachine image.machine)

/-- The headers as they lie in the file. -/
def headerBytes (header : Header32) (file : Bytes) : List UInt8 :=
  (file.extract 0 header.headerSize.toNat).toList

/-- Maps an image into memory and binds its imports to thunks from `thunkBase` on. An error
leaves what has been stored before. -/
def map (image : Image) (file : Bytes) (thunkBase : UInt32) : Exec LoadError LoadedImage := do
  let header ← Exec.liftExcept image.header
  let entry ← Exec.liftExcept (rebase header.base header.entry.toNat)
  Exec.emit (.imageFound header.base entry image.sections.length)
  let headers := headerBytes header file
  Exec.store .refused (·.writeBytes header.base headers)
  let ranges ← image.sections.mapM (·.map file header.base)
  let binding ← image.imports.foldlM (Binding.bind header.base) { nextThunk := thunkBase }
  unless binding.imports.isEmpty do
    Exec.update fun cpu =>
      { cpu with
        memory := cpu.memory.protect thunkBase (UInt32.ofNat binding.imports.size * thunkStride)
          .readExecute }
  let claims := PageClaims.ofRanges
    (⟨header.base, UInt32.ofNat headers.length, .readOnly⟩ :: ranges)
  Exec.emitAll claims.events.toList
  Exec.update fun cpu => { cpu with memory := claims.apply cpu.memory }
  Exec.emit (.importsBound binding.imports.size)
  return ⟨entry, header.base, binding.imports⟩

end Image

end Pe

end Ia32
