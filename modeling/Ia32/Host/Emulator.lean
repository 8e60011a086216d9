import Ia32.Host.Function

/-!
# Emulators

An emulator answers calls of imported symbols in place of a library of the guest's
system. The guest's return address is on top of the stack when it is asked, and is
taken off after its answer, together with as many bytes of arguments as it says. An
emulator without an answer leaves the call to the next one, in the state that it leaves.
-/

namespace Ia32

/-- A named set of answers to imported symbols. -/
structure Emulator where
  name : String
  /-- The answer to a symbol, if there is one. -/
  answer? : String → Cpu → Option HostReply
  /-- The state left, and the events made to happen, by asking for a symbol in vain. -/
  decline : String → Cpu → Cpu × List Event := fun _ cpu => (cpu, [])
  /-- The bytes of arguments to take off the stack after a call of the symbol. -/
  cleanup : String → UInt32 := fun _ => 0

/-- A function table as an emulator: it answers the symbols that it has functions for,
and cleans up as its convention says. -/
def FunctionTable.emulator (t : FunctionTable) (name : String) : Emulator where
  name
  answer? symbol cpu := t.invoke? symbol cpu
  cleanup symbol := t.convention.calleeCleanup ((t.arity? symbol).getD 0)

end Ia32
