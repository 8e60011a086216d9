/-!
# Portable executables

What a PE file says, as far as loading it needs: machine, optional header, sections,
and imported symbols. The record says nothing about how it was read, so that mapping it
(`Ia32.Pe.Mapping`) can be reasoned about for every record.
-/

namespace Ia32.Pe

/-- The bytes of a file. -/
abbrev Bytes := Array UInt8

/-- The fields of a 32-bit optional header that loading needs. -/
structure Header32 where
  /-- The address that the image wants to be loaded at. -/
  base : UInt32
  /-- The entry point, relative to the base. -/
  entry : UInt32
  /-- The number of bytes at the start of the file that are headers. -/
  headerSize : UInt32
  deriving DecidableEq, Repr

/-- The optional header of one of the two formats. -/
inductive OptionalHeader where
  | pe32 (header : Header32)
  | pe32Plus
  deriving DecidableEq, Repr

/-- A section: where its data lies in the file, and where in memory, relative to the
base. A name that is no valid UTF-8 is none. -/
structure Section where
  name : Option String
  virtualSize : UInt32
  virtualAddress : UInt32
  rawSize : UInt32
  rawPointer : UInt32
  characteristics : UInt32
  deriving DecidableEq, Repr

/-- An imported symbol, the library it comes from, and the place of its address slot
relative to the base. -/
structure Import where
  symbol : String
  library : String
  slot : Nat
  deriving DecidableEq, Repr

/-- What a PE file says. -/
structure Image where
  machine : UInt16
  optional : Option OptionalHeader
  sections : List Section
  imports : List Import
  deriving DecidableEq, Repr

end Ia32.Pe
