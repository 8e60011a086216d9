import Ia32.Pe.Mapping
import Ia32.Pe.Parser

/-!
# Loading a file

A file is read as a portable executable and mapped. Reading it is the task of a reader, of which
nothing is assumed: what is mapped is the record that the reader gives (`loadWith`). The reader of
this library is `Image.parse?`, and `load` loads with it.
-/

namespace Ia32.Pe

/-- A reader of PE files: gives what a file says, unless the file is malformed. -/
abbrev Reader := Bytes → Option Image

/-- Reads a PE file. -/
def readImage (read? : Reader) (file : Bytes) : Except LoadError Image :=
  match read? file with
  | some image => .ok image
  | none => .error .malformed

/-- Reads a PE file and maps it into memory. -/
def loadWith (read? : Reader) (file : Bytes) (thunkBase : UInt32) : Exec LoadError LoadedImage := do
  let image ← Exec.liftExcept (readImage read? file)
  image.map file thunkBase

/-- Reads a PE file with the reader of this library and maps it into memory. -/
def load (file : Bytes) (thunkBase : UInt32) : Exec LoadError LoadedImage :=
  loadWith Image.parse? file thunkBase

end Ia32.Pe
