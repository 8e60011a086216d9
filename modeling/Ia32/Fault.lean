import Ia32.Operand

/-!
# Faults

What keeps a single instruction from being carried out, its text, and the report
that a host's fault handler is given.
-/

namespace Ia32

/-- The failure of an instruction. -/
inductive Fault where
  /-- A refused store. -/
  | accessViolation (violation : AccessViolation)
  /-- An opcode that no handler claims. -/
  | unimplementedOpcode (opcode : UInt8) (address : UInt32)
  /-- A form of operand that the opcode's handler does not carry out. -/
  | unimplementedOperand (opcode modrm : UInt8) (address : UInt32)
  /-- An operand that cannot be decoded. -/
  | decode (address : UInt32) (cause : DecodeError)
  deriving DecidableEq, Repr

/-- The text of a fault. -/
def Fault.message : Fault → String
  | accessViolation violation => violation.message
  | unimplementedOpcode opcode address =>
    "Unimplemented opcode " ++ hex8 opcode ++ " at " ++ hex32 address
  | unimplementedOperand opcode modrm address =>
    "Unimplemented operand for opcode " ++ hex8 opcode ++ " (ModRM " ++ hex8 modrm ++ ") at " ++
      hex32 address
  | decode address cause => "Decode error at " ++ hex32 address ++ ": " ++ cause.message

/-- The sort of a reported fault. -/
inductive FaultKind where
  | accessViolation
  | unimplementedOpcode
  | unimplementedOperand
  | invalidRegister
  deriving DecidableEq, Repr

/-- The heading of a report. -/
def FaultKind.title : FaultKind → String
  | accessViolation => "Access violation"
  | unimplementedOpcode => "Unimplemented opcode"
  | unimplementedOperand => "Unimplemented operand"
  | invalidRegister => "Invalid register"

/-- How grave a reported fault is. -/
inductive Severity where
  | warning
  | error
  deriving DecidableEq, Repr

/-- Only a refused store is a mere warning: the program may go on from it. -/
def FaultKind.severity : FaultKind → Severity
  | accessViolation => .warning
  | _ => .error

/-- The sort of a fault. -/
def Fault.kind : Fault → FaultKind
  | accessViolation _ => .accessViolation
  | unimplementedOpcode .. => .unimplementedOpcode
  | unimplementedOperand .. => .unimplementedOperand
  | decode .. => .invalidRegister

/-- What a fault handler is told: the fault, with the address of the failing
instruction and its opcode byte. -/
structure FaultReport where
  kind : FaultKind
  title : String
  message : String
  severity : Severity
  address : UInt32
  opcode : UInt8
  deriving DecidableEq, Repr

/-- The report of a fault of the instruction at `address`. -/
def Fault.report (fault : Fault) (address : UInt32) (opcode : UInt8) : FaultReport where
  kind := fault.kind
  title := fault.kind.title
  message := fault.message
  severity := fault.kind.severity
  address
  opcode

end Ia32
