import Ia32.Cpu.Basic

/-!
# Configuration

How long a program may run, where its stack and its thunks lie, and what a refused store
means. A configuration is read from the text of a file, by a reader of which nothing is assumed
(`Config.ofFileWith`).
-/

namespace Ia32

/-- What a run does when an instruction stores on a page that is not writable. -/
inductive FaultPolicy where
  /-- Goes on with the next fetch. -/
  | bestEffort
  /-- Treats it like any other fault. -/
  | strict
  deriving DecidableEq, Inhabited, Repr

/-- The settings of a sandbox. -/
structure Config where
  instructionBudget : UInt64 := 10000
  stackTop : UInt32 := Cpu.defaultStackTop
  thunkBase : UInt32 := 0x7ff00000
  faultPolicy : FaultPolicy := .bestEffort
  deriving DecidableEq, Inhabited, Repr

/-- Why there is no configuration. -/
inductive ConfigError where
  /-- The file cannot be read, or is no UTF-8 text. -/
  | unreadable
  /-- The text is no configuration. -/
  | malformed
  deriving DecidableEq, Repr

namespace Config

/-- A reader of configurations: gives the settings that a text spells out, if it is a
configuration. -/
abbrev Reader := String → Option Config

/-- The configuration that a text is. -/
def ofTextWith (read? : Reader) (text : String) : Except ConfigError Config :=
  match read? text with
  | some config => .ok config
  | none => .error .malformed

/-- The configuration in a file with these bytes, if there is such a file. -/
def ofFileWith (read? : Reader) (file? : Option (Array UInt8)) : Except ConfigError Config :=
  match file?.bind fun bytes => String.fromUTF8? ⟨bytes⟩ with
  | some text => ofTextWith read? text
  | none => .error .unreadable

end Config

end Ia32
