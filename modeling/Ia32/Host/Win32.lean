import Ia32.Host.Emulator

/-!
# Emulated Win32 libraries

The few functions of `kernel32` and `user32` that console programs are given.
-/

namespace Ia32.Win32

/-- Leaves a result in EAX and goes to the return address, which stays on the stack. -/
def returnWith (cpu : Cpu) (result : UInt32) : Cpu :=
  (cpu.set .eax result).jump (cpu.memory.read32 cpu.esp)

/-- `ExitProcess` halts the processor; its argument is the result. -/
def exitProcess (cpu : Cpu) : Cpu × List Event :=
  let code := cpu.memory.read32 (cpu.esp + 4)
  (returnWith { cpu with halted := true } code, [.processExit code])

/-- `GetTickCount` counts one tick for every retired instruction. -/
def getTickCount (cpu : Cpu) : Cpu × List Event := (returnWith cpu cpu.retired.toUInt32, [])

/-- `GetLastError` knows of no error. -/
def getLastError (_ : List Param) : UInt32 × List Event := (0, [])

/-- `lstrlenA` measures a string by the bytes of its UTF-8 encoding. -/
def lstrlenA : List Param → UInt32 × List Event
  | [string] => (UInt32.ofNat string.text.utf8ByteSize, [])
  | _ => (0, [])

/-- `MessageBoxA` has nobody to show the box to; the answer is always the button OK. -/
def messageBoxA : List Param → UInt32 × List Event
  | [window, text, caption, style] =>
    (1, [.messageBox window.toUInt32 style.toUInt32 caption.text text.text])
  | _ => (1, [])

/-- The functions of `kernel32`. -/
def kernel32Table : FunctionTable :=
  { convention := .stdcall : FunctionTable }
    |>.insert "ExitProcess" (.variadic exitProcess)
    |>.insert "GetTickCount" (.variadic getTickCount)
    |>.insert "GetLastError" (.typed [] getLastError)
    |>.insert "lstrlenA" (.typed [.cString] lstrlenA)

/-- The functions of `user32`. -/
def user32Table : FunctionTable :=
  { convention := .stdcall : FunctionTable }
    |>.insert "MessageBoxA" (.typed [.uint32, .cString, .cString, .uint32] messageBoxA)

/-- The emulated `kernel32`. -/
def kernel32 : Emulator := kernel32Table.emulator "kernel32"

/-- The emulated `user32`. -/
def user32 : Emulator := user32Table.emulator "user32"

/-- The libraries of the console runner, in the order they are asked. -/
def libraries : List Emulator := [kernel32, user32]

end Ia32.Win32
