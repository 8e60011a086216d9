import Ia32.Sandbox.Basic

/-!
# Runs

A run dispatches instructions until the processor halts, a halt is requested, the fault
handler aborts, or the budget is spent. Before each dispatch the request to halt is looked
at first, the halted processor next, and the budget last.

A refused store under `FaultPolicy.bestEffort` is passed over: the same instruction is
fetched again. Any other fault goes to the fault handler (`Sandbox.resolve`), and ends the
run if there is none.

The run is a recursion on the budget that is left (`Sandbox.runFor`); each of its turns is
one dispatch (`Sandbox.turn`).
-/

namespace Ia32

/-- The account of a run that has come to an end. Instructions are counted by dispatches,
those that fail included. -/
structure Summary where
  instructions : Nat
  faults : Nat
  stop : StopReason
  deriving DecidableEq, Repr

/-- What follows a dispatch: the next one, or the end of the run. -/
inductive Verdict where
  | next
  | stop (reason : StopReason)
  | fail (fault : Fault)
  deriving DecidableEq, Repr

/-- One dispatch of a run: what follows it, and whether it failed. -/
structure Turn (σ : Type) where
  verdict : Verdict
  faulted : Bool
  sandbox : Sandbox σ
  events : List Event

/-- A run so far. -/
structure Progress (σ : Type) where
  sandbox : Sandbox σ
  instructions : Nat := 0
  faults : Nat := 0
  events : Array Event := #[]

namespace Progress

variable {σ : Type}

/-- The run with one more dispatch. -/
def add (p : Progress σ) (turn : Turn σ) : Progress σ where
  sandbox := turn.sandbox
  instructions := p.instructions + 1
  faults := if turn.faulted then p.faults + 1 else p.faults
  events := p.events ++ turn.events

end Progress

namespace Sandbox

variable {σ : Type}

/-- The reason not to dispatch at all. -/
def stopReason? (s : Sandbox σ) : Option StopReason :=
  if s.controls.haltRequested then some .cancelled
  else if s.cpu.halted then some .halted
  else none

/-- What follows a fault of the instruction at `eip`, whose opcode byte is `opcode`. -/
def resolve (s : Sandbox σ) (fault : Fault) (eip : UInt32) (opcode : UInt8) : Turn σ :=
  match fault, s.config.faultPolicy with
  | .accessViolation violation, .bestEffort =>
    ⟨.next, true, s, [.violationIgnored violation eip]⟩
  | _, _ =>
    match s.handler? with
    | none => ⟨.fail fault, true, s, [.faultUnhandled fault]⟩
    | some handler =>
      let report := fault.report eip opcode
      let (resolution, controls) := handler report s.controls
      let handled := { s with controls }
      match resolution with
      | .abort => ⟨.stop .aborted, true, handled, [.faultReported report]⟩
      | .retry => ⟨.next, true, handled, [.faultReported report, .retried eip]⟩
      | .ignore =>
        ⟨.next, true, { handled with cpu := { s.cpu with rep := none, eip := eip + 1 } },
          [.faultReported report, .skipped opcode eip]⟩

/-- One dispatch and what follows it. -/
def turn (s : Sandbox σ) : Turn σ :=
  match s.dispatch with
  | ⟨.ok (), cpu, events⟩ => ⟨.next, false, { s with cpu }, events⟩
  | ⟨.error fault, cpu, events⟩ =>
    let resolved := { s with cpu }.resolve fault s.cpu.eip s.cpu.opcode
    { resolved with events := events ++ resolved.events }

/-- Goes on with a run for at most `budget` dispatches. -/
def runFor : (budget : Nat) → Progress σ → Except Fault StopReason × Progress σ
  | 0, p => (.ok (p.sandbox.stopReason?.getD .budgetExhausted), p)
  | budget + 1, p =>
    match p.sandbox.stopReason? with
    | some reason => (.ok reason, p)
    | none =>
      let turn := p.sandbox.turn
      match turn.verdict with
      | .next => runFor budget (p.add turn)
      | .stop reason => (.ok reason, p.add turn)
      | .fail fault => (.error fault, p.add turn)

/-- A run before its first turn. -/
def start (s : Sandbox σ) : Progress σ :=
  { sandbox := s, events := #[.started s.cpu.eip s.config.instructionBudget] }

/-- The account of a run that has come to an end. -/
def report : Except Fault StopReason × Progress σ → Reply σ RunError Summary
  | (.ok stop, p) =>
    ⟨.ok ⟨p.instructions, p.faults, stop⟩, p.sandbox,
      (p.events.push (.stopped stop p.instructions p.faults)).toList⟩
  | (.error fault, p) => ⟨.error (.fault p.instructions fault), p.sandbox, p.events.toList⟩

/-- Runs the loaded program. -/
def execute (s : Sandbox σ) : Reply σ RunError Summary :=
  if s.image.isNone then ⟨.error .notLoaded, s, []⟩
  else report (runFor s.config.instructionBudget.toNat s.start)

end Sandbox

end Ia32
