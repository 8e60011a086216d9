import Ia32.Event

/-!
# Host functions

A table of named functions of the host that share one calling convention. A typed
function is given its arguments as values and answers with a result; a variadic one
reads the guest's stack itself and may change the state as it likes. Either may make
events happen.

`FunctionTable.invoke?` runs a function and leaves the return to the caller of the
table; `FunctionTable.call?` also returns to the guest as the convention says.
-/

namespace Ia32

/-- Who takes the arguments off the stack: the caller, or the function called. -/
inductive Convention where
  | cdecl
  | stdcall
  deriving DecidableEq, Inhabited, Repr

namespace Convention

/-- The name in lowercase. -/
def name : Convention → String
  | cdecl => "cdecl"
  | stdcall => "stdcall"

/-- The most parameters that a typed function may declare. -/
def maxParameters : Convention → Nat
  | cdecl => 6
  | stdcall => 4

/-- The bytes of arguments that the function takes off the stack. -/
def calleeCleanup (n : Nat) : Convention → UInt32
  | cdecl => 0
  | stdcall => UInt32.ofNat n * 4

end Convention

/-- Returns from a function of `n` parameters: EAX gets the result and EIP the return
address. Only under `stdcall` does ESP move, past that address and the arguments. -/
def Cpu.complete (cpu : Cpu) (convention : Convention) (result : UInt32) (n : Nat) : Cpu :=
  let returnAddress := cpu.memory.read32 cpu.esp
  let cleaned :=
    match convention with
    | .cdecl => cpu
    | .stdcall => cpu.set .esp (cpu.esp + (convention.calleeCleanup n + 4))
  (cleaned.set .eax result).jump returnAddress

/-- A function of the host. -/
inductive HostFunction where
  | typed (parameters : List ParamType) (body : List Param → UInt32 × List Event)
  | variadic (body : Cpu → Cpu × List Event)

/-- The number of parameters; a variadic function declares none. -/
def HostFunction.arity? : HostFunction → Option Nat
  | typed parameters _ => some parameters.length
  | variadic _ => none

/-- What a host function answers, the state it leaves, and the events it makes happen. -/
structure HostReply where
  result : UInt32
  cpu : Cpu
  events : List Event

/-- The refusal of a typed function with more parameters than its convention allows. -/
structure TooManyParameters where
  convention : Convention
  name : String
  count : Nat
  deriving DecidableEq, Repr

/-- The text of the refusal. -/
def TooManyParameters.message (e : TooManyParameters) : String :=
  e.convention.name ++ " functions take at most " ++ toString e.convention.maxParameters ++
    " parameters (" ++ e.name ++ " declares " ++ toString e.count ++ ")"

/-- Named host functions under one calling convention. -/
structure FunctionTable where
  convention : Convention
  functions : Std.ExtTreeMap String HostFunction := ∅

namespace FunctionTable

/-- Enters a function; an earlier one of that name is replaced. -/
def insert (t : FunctionTable) (name : String) (f : HostFunction) : FunctionTable :=
  { t with functions := t.functions.insert name f }

/-- Enters a typed function, unless it declares too many parameters. -/
def register (t : FunctionTable) (name : String) (parameters : List ParamType)
    (body : List Param → UInt32 × List Event) : Except TooManyParameters FunctionTable :=
  if t.convention.maxParameters < parameters.length then
    .error ⟨t.convention, name, parameters.length⟩
  else .ok (t.insert name (.typed parameters body))

/-- The function of a name. -/
def function? (t : FunctionTable) (name : String) : Option HostFunction := t.functions[name]?

/-- Whether there is a function of that name. -/
def contains (t : FunctionTable) (name : String) : Bool := t.functions.contains name

/-- The number of parameters of a typed function. -/
def arity? (t : FunctionTable) (name : String) : Option Nat :=
  (t.function? name).bind HostFunction.arity?

/-- Runs a function on the present stack. EAX gives the result of a variadic one. -/
def invoke? (t : FunctionTable) (name : String) (cpu : Cpu) : Option HostReply :=
  (t.function? name).map fun
    | .typed parameters body =>
      let (result, events) := body (cpu.arguments parameters)
      ⟨result, cpu, events⟩
    | .variadic body =>
      let (cpu, events) := body cpu
      ⟨cpu.registers.eax, cpu, events⟩

/-- Runs a function and returns to the guest. A variadic function returns by itself. -/
def call? (t : FunctionTable) (name : String) (cpu : Cpu) : Option HostReply :=
  (t.function? name).map fun
    | .typed parameters body =>
      let (result, events) := body (cpu.arguments parameters)
      ⟨result, cpu.complete t.convention result parameters.length, events⟩
    | .variadic body =>
      let (cpu, events) := body cpu
      ⟨cpu.registers.eax, cpu, events⟩

end FunctionTable

end Ia32
