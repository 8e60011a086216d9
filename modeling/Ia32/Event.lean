import Ia32.Fault
import Ia32.Host.Param

/-!
# Events

What happens during a run besides the change of state, as data: the records of the
log, and two kinds of event that the log does not show, a call reported by a host
function and a fault handed to the fault handler. `Event.record?` gives the level and
the text of a record.
-/

namespace Ia32

/-- The level of a log record. -/
inductive Level where
  | error
  | warn
  | info
  | debug
  | trace
  deriving DecidableEq, Repr

/-- The name of a level. -/
def Level.label : Level → String
  | error => "ERROR"
  | warn => "WARN"
  | info => "INFO"
  | debug => "DEBUG"
  | trace => "TRACE"

/-- How talkative a log has to be to show the level. -/
def Level.verbosity : Level → Nat
  | error => 1
  | warn => 2
  | info => 3
  | debug => 4
  | trace => 5

/-- Why a run ends. -/
inductive StopReason where
  /-- The processor has halted. -/
  | halted
  /-- A halt has been requested. -/
  | cancelled
  | budgetExhausted
  /-- The fault handler has chosen to abort. -/
  | aborted
  deriving DecidableEq, Repr

/-- The name used in messages. -/
def StopReason.label : StopReason → String
  | halted => "Halted"
  | cancelled => "Cancelled"
  | budgetExhausted => "BudgetExhausted"
  | aborted => "Aborted"

/-- Something that happens during a run. -/
inductive Event where
  /-- A handler is about to carry out the instruction at `eip`. -/
  | dispatched (eip : UInt32) (opcode : UInt8) (mnemonic : String)
  /-- A pending repeat prefix is dropped before an instruction that has no use for it. -/
  | repDropped (mnemonic : String) (eip : UInt32)
  | halted (eip : UInt32)
  /-- A byte is read from the device address `device`. -/
  | deviceRead (device : UInt16) (value : UInt8)
  /-- A transfer to or from a device is stepped over. -/
  | deviceSkipped (opcode : UInt8) (eip : UInt32)
  /-- An emulator has answered the call of an imported symbol. -/
  | served (emulator symbol : String) (result : UInt32)
  /-- No emulator answers the call of an imported symbol. -/
  | unserved (symbol : String) (target : UInt32)
  | processExit (code : UInt32)
  | messageBox (window style : UInt32) (caption text : String)
  | imageFound (base entry : UInt32) (sections : Nat)
  | sectionMapped (name : String) (address span : UInt32) (protection : Protection)
  | importBound (library symbol : String) (thunk slot : UInt32)
  /-- Two ranges claim a page with different protections. -/
  | pageContested (page : Nat) (held claimed kept : Protection)
  | importsBound (count : Nat)
  | started (eip : UInt32) (budget : UInt64)
  /-- The run goes on after a refused store of the instruction at `eip`. -/
  | violationIgnored (violation : AccessViolation) (eip : UInt32)
  /-- A fault that nobody handles. -/
  | faultUnhandled (fault : Fault)
  | retried (eip : UInt32)
  | skipped (opcode : UInt8) (eip : UInt32)
  | stopped (reason : StopReason) (instructions faults : Nat)
  /-- A host function reports that it was called, with its arguments if they are typed. -/
  | hostCalled (function : String) (arguments : Option (List Param))
  /-- The fault handler is given a report. -/
  | faultReported (report : FaultReport)
  deriving DecidableEq

/-- The level and text of the log record of an event. -/
def Event.record? : Event → Option (Level × String)
  | dispatched eip opcode mnemonic =>
    some (.trace, "[Cpu] " ++ hex32 eip ++ ": " ++ hexDigits 2 opcode.toNat ++ " " ++ mnemonic)
  | repDropped mnemonic eip =>
    some (.debug, "[Cpu] Dropping REP prefix before " ++ mnemonic ++ " at " ++ hex32 eip)
  | halted eip => some (.info, "[Cpu] HLT at " ++ hex32 eip)
  | deviceRead device value =>
    some (.trace, "[Cpu] IN AL, DX (port " ++ hex16 device ++ ") -> " ++ hex8 value)
  | deviceSkipped opcode eip =>
    some (.warn, "[Cpu] Port I/O opcode " ++ hex8 opcode ++ " at " ++ hex32 eip ++
      " is not implemented; skipping")
  | served emulator symbol result =>
    some (.debug, "[Api] " ++ emulator ++ "!" ++ symbol ++ " returned " ++ hex 1 result.toNat)
  | unserved symbol target =>
    some (.warn, "[Api] No emulator implements " ++ symbol ++ " (" ++ hex32 target ++
      "); entering thunk")
  | processExit code => some (.info, "[Api] ExitProcess(" ++ toString code.toNat ++ ")")
  | messageBox window style caption text =>
    some (.info, "[Api] MessageBoxA hwnd=" ++ hex 1 window.toNat ++ " type=" ++ hex 1 style.toNat ++
      " \"" ++ caption ++ "\": " ++ text)
  | imageFound base entry sections =>
    some (.info, "[Loader] PE32 image: base " ++ hex32 base ++ ", entry " ++ hex32 entry ++ ", " ++
      toString sections ++ " sections")
  | sectionMapped name address span protection =>
    some (.debug, "[Loader] " ++ padRight 8 name ++ " " ++ hex32 address ++ " +" ++
      hex 1 span.toNat ++ " " ++ protection.label)
  | importBound library symbol thunk slot =>
    some (.debug, "[Loader] " ++ library ++ "!" ++ symbol ++ " -> " ++ hex32 thunk ++ " (IAT " ++
      hex32 slot ++ ")")
  | pageContested page held claimed kept =>
    some (.warn, "[Loader] Page " ++ hex 8 page ++ " is both " ++ held.label ++ " and " ++
      claimed.label ++ "; using " ++ kept.label)
  | importsBound count => some (.info, "[Loader] Bound " ++ toString count ++ " imported symbols")
  | started eip budget =>
    some (.info, "[Interp] Starting at " ++ hex32 eip ++ " with a budget of " ++
      toString budget.toNat ++ " instructions")
  | violationIgnored violation eip =>
    some (.warn, "[Interp] " ++ violation.message ++ " (instruction at " ++ hex32 eip ++
      "); continuing")
  | faultUnhandled fault => some (.error, "[Interp] " ++ fault.message)
  | retried eip => some (.debug, "[Interp] Retrying " ++ hex32 eip)
  | skipped opcode eip =>
    some (.warn, "[Interp] Skipping opcode " ++ hex8 opcode ++ " at " ++ hex32 eip)
  | stopped reason instructions faults =>
    some (.info, "[Interp] Stopped (" ++ reason.label ++ ") after " ++ toString instructions ++
      " instructions, " ++ toString faults ++ " faults")
  | hostCalled .. => none
  | faultReported _ => none

/-- The log records among some events, up to a verbosity. -/
def Event.records (verbosity : Nat) (events : List Event) : List (Level × String) :=
  (events.filterMap Event.record?).filter fun (level, _) => level.verbosity ≤ verbosity

end Ia32
